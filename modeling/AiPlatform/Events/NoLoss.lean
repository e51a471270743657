/-
  AiPlatform.Events.NoLoss

  No event is lost: an entry that a group has delivered is on its pending list, or
  it was acknowledged after it had been put in the dead letter queue or after the
  handler of the group had returned on its event.

  The one branch in doubt is the skip of `_handle_one`, which acknowledges an entry
  because its event is claimed.  A claim that a worker of the group has made, and
  has not left behind in a crash, is in flight or its handler has returned; and
  the worker that meets it is the only one of its name, so it is not in flight.
  Claims of other groups, and claims left behind, say nothing of the handler.
-/

import AiPlatform.Events.ConsumerSpec

namespace AiPlatform.Events

open Transition Redis

variable {bus : Bus} {shared shared' : Shared} {worker worker' : Worker} {choice : Drive}

/-! ## What may be acknowledged -/

/-- The handler of the group has returned on the event. -/
def Completed (log : List Happening) (group : String) (event : EventId) : Prop :=
  ∃ consumer claimedAt, .completed group consumer event claimedAt ∈ log

/-- The event of an entry of the stream. -/
def Carries (bus : Bus) (shared : Shared) (id : Nat) (event : EventId) : Prop :=
  ∃ payload, shared.stream.entryAt id = some payload ∧ eventOf bus payload = .envelope event

def MayAck (bus : Bus) (shared : Shared) (log : List Happening) (group : String) (id : Nat) :
    Prop :=
  .parked group id ∈ log ∨ ∃ event, Carries bus shared id event ∧ Completed log group event

/-- The entry was acknowledged after it might be. -/
def Settled (bus : Bus) (shared : Shared) (group : String) (id : Nat) : Prop :=
  ∃ earlier later, shared.log = earlier ++ .acked group id :: later ∧
    MayAck bus shared earlier group id

/-- No entry that a group has delivered is lost to it. -/
def NoEventLost (bus : Bus) (shared : Shared) : Prop :=
  ∀ group id, Stream.Delivered group id shared.stream →
    Stream.Pending group id shared.stream ∨ Settled bus shared group id

theorem Completed.mono {log log' : List Happening} {group : String} {event : EventId}
    (hmem : ∀ x ∈ log, x ∈ log') (h : Completed log group event) : Completed log' group event := by
  obtain ⟨consumer, claimedAt, hx⟩ := h
  exact ⟨consumer, claimedAt, hmem _ hx⟩

theorem Carries.grows (hgrows : Grows shared shared') {id : Nat} {event : EventId}
    (h : Carries bus shared id event) : Carries bus shared' id event := by
  obtain ⟨payload, hentry, hevent⟩ := h
  exact ⟨payload, hgrows.entries id payload hentry, hevent⟩

theorem MayAck.grows (hgrows : Grows shared shared') {log log' : List Happening}
    (hmem : ∀ x ∈ log, x ∈ log') {group : String} {id : Nat}
    (h : MayAck bus shared log group id) : MayAck bus shared' log' group id := by
  rcases h with hparked | ⟨event, hcarries, hcompleted⟩
  · exact .inl (hmem _ hparked)
  · exact .inr ⟨event, hcarries.grows hgrows, hcompleted.mono hmem⟩

theorem Settled.grows (hgrows : Grows shared shared') {group : String} {id : Nat}
    (h : Settled bus shared group id) : Settled bus shared' group id := by
  obtain ⟨earlier, later, hlog, hmay⟩ := h
  obtain ⟨new, hnew⟩ := hgrows.log
  refine ⟨earlier, later ++ new, ?_, hmay.grows hgrows fun _ hx => hx⟩
  rw [hnew, hlog, List.append_assoc, List.cons_append]

/-! ## What a worker holds -/

/-- The entries a worker has in hand. -/
def Phase.entries : Phase → List Entry
  | .reclaiming _ _ out => out
  | .boundary todo => todo
  | .parking entry _ _ todo => entry :: todo
  | .claiming job => job.entry :: job.todo
  | .counting job _ => job.entry :: job.todo
  | .handling job _ _ => job.entry :: job.todo
  | .releasing job _ _ _ => job.entry :: job.todo
  | .acking _ todo => todo
  | .clearing _ todo => todo
  | _ => []

def Phase.job : Phase → Option Job
  | .claiming job => some job
  | .counting job _ => some job
  | .handling job _ _ => some job
  | .releasing job _ _ _ => some job
  | _ => none

/-- The entry a worker is about to acknowledge. -/
def Phase.acks : Phase → Option Nat
  | .acking id _ => some id
  | _ => none

/-- What a worker holds is of the stream, and it acknowledges what it may. -/
structure PhaseOk (bus : Bus) (shared : Shared) (group : String) (phase : Phase) : Prop where
  entries : ∀ entry ∈ phase.entries, shared.stream.entryAt entry.id = some entry.payload
  job : ∀ job, phase.job = some job → eventOf bus job.entry.payload = .envelope job.event
  acks : ∀ id, phase.acks = some id → MayAck bus shared shared.log group id

theorem PhaseOk.grows {group : String} {phase : Phase} (hgrows : Grows shared shared')
    (h : PhaseOk bus shared group phase) : PhaseOk bus shared' group phase where
  entries entry hentry := hgrows.entries _ _ (h.entries entry hentry)
  job := h.job
  acks id hid := (h.acks id hid).grows hgrows fun _ hx => hgrows.mem hx

theorem PhaseOk.of_job {group : String} {phase : Phase}
    (hentries : ∀ entry ∈ phase.entries, shared.stream.entryAt entry.id = some entry.payload)
    (hjob : ∀ job, phase.job = some job → eventOf bus job.entry.payload = .envelope job.event)
    (hacks : phase.acks = none) : PhaseOk bus shared group phase where
  entries := hentries
  job := hjob
  acks id h := by rw [hacks] at h; cases h

theorem PhaseOk.of_acks {group : String} {phase : Phase}
    (hentries : ∀ entry ∈ phase.entries, shared.stream.entryAt entry.id = some entry.payload)
    (hjob : phase.job = none) (hacks : ∀ id, phase.acks = some id → MayAck bus shared shared.log group id) :
    PhaseOk bus shared group phase where
  entries := hentries
  job job h := by rw [hjob] at h; cases h
  acks := hacks

theorem PhaseOk.of_entries {group : String} {phase : Phase}
    (hentries : ∀ entry ∈ phase.entries, shared.stream.entryAt entry.id = some entry.payload)
    (hjob : phase.job = none) (hacks : phase.acks = none) : PhaseOk bus shared group phase :=
  .of_acks hentries hjob fun id h => by rw [hacks] at h; cases h

theorem PhaseOk.of_nothing {group : String} {phase : Phase} (hentries : phase.entries = [])
    (hjob : phase.job = none) (hacks : phase.acks = none) : PhaseOk bus shared group phase :=
  .of_entries (hentries ▸ List.forall_mem_nil _) hjob hacks

theorem entryAt_of_mem {stream : Stream (Option (List UInt8))} {ids : List Nat} {entry : Entry}
    (h : entry ∈ entriesOf stream ids) : stream.entryAt entry.id = some entry.payload := by
  obtain ⟨id, -, heq⟩ := List.mem_filterMap.mp h
  obtain ⟨payload, hpayload, rfl⟩ := Option.map_eq_some_iff.mp heq
  exact hpayload

/-- A step keeps what a worker holds, if it skips only what the group has handled. -/
theorem proceed_phaseOk {phase phase' : Phase} (hok : PhaseOk bus shared worker.group phase)
    (hskip : ∀ job, phase = .claiming job → shared.claims.get shared.now
      (IdempotencyStore.key bus worker.consumer job.event) ≠ none →
      Completed shared.log worker.group job.event)
    (h : proceed bus worker shared phase = some (shared', phase')) :
    PhaseOk bus shared' worker.group phase' := by
  have hgrows := proceed_grows h
  have hkept : ∀ entry ∈ phase.entries,
      shared'.stream.entryAt entry.id = some entry.payload := (hok.grows hgrows).entries
  have htodo : ∀ {entry : Entry} {todo : List Entry}, phase.entries = entry :: todo →
      ∀ other ∈ todo, shared'.stream.entryAt other.id = some other.payload :=
    fun heq other hother => hkept other (heq ▸ List.mem_cons_of_mem _ hother)
  cases phase with
  | ensuring =>
    obtain ⟨rfl, rfl⟩ := Prod.mk.inj (Option.some.inj h)
    exact .of_nothing rfl rfl rfl
  | reclaiming passes cursor out =>
    cases passes with
    | zero =>
      obtain ⟨rfl, rfl⟩ := Prod.mk.inj (Option.some.inj h)
      exact .of_entries hkept rfl rfl
    | succ passes =>
      have hpass := Option.some.inj h
      unfold reclaimPass at hpass
      split at hpass
      · obtain ⟨rfl, rfl⟩ := Prod.mk.inj hpass
        exact .of_entries hkept rfl rfl
      · rename_i ids nextCursor stream _
        obtain ⟨rfl, rfl⟩ := Prod.mk.inj hpass
        have hall : ∀ entry ∈ out ++ (entriesOf stream ids).filter
            (fun entry => entry.id ∉ out.map Entry.id),
            stream.entryAt entry.id = some entry.payload := by
          intro entry hentry
          rcases List.mem_append.mp hentry with hold | hnew
          · exact hkept entry hold
          · exact entryAt_of_mem (List.mem_of_mem_filter hnew)
        split
        · exact .of_entries hall rfl rfl
        · exact .of_entries hall rfl rfl
  | boundary todo =>
    obtain ⟨rfl, rfl⟩ := Prod.mk.inj (Option.some.inj h)
    split
    · exact .of_nothing rfl rfl rfl
    · cases todo with
      | nil => exact .of_nothing rfl rfl rfl
      | cons entry rest =>
        dsimp only
        unfold handleOne
        split
        · exact .of_entries hkept rfl rfl
        · rename_i event hevent
          refine .of_job hkept (fun job hjob => ?_) rfl
          obtain rfl := Option.some.inj hjob
          exact hevent
        · exact .of_nothing rfl rfl rfl
  | reading =>
    simp only [proceed] at h
    split at h
    · obtain ⟨rfl, rfl⟩ := Prod.mk.inj (Option.some.inj h)
      exact .of_nothing rfl rfl rfl
    · obtain ⟨rfl, rfl⟩ := Prod.mk.inj (Option.some.inj h)
      exact .of_entries (fun entry hentry => entryAt_of_mem hentry) rfl rfl
  | recreating =>
    obtain ⟨rfl, rfl⟩ := Prod.mk.inj (Option.some.inj h)
    exact .of_nothing rfl rfl rfl
  | parking entry error attempts todo =>
    obtain ⟨rfl, rfl⟩ := Prod.mk.inj (Option.some.inj h)
    refine .of_acks (htodo rfl) rfl fun id hid => ?_
    obtain rfl := Option.some.inj hid
    exact .inl (List.mem_append_right _ List.mem_cons_self)
  | claiming job =>
    simp only [proceed, IdempotencyStore.claim, Redis.Strings.setNx_fst] at h
    split at h
    · obtain ⟨rfl, rfl⟩ := Prod.mk.inj (Option.some.inj h)
      exact .of_job hkept hok.job rfl
    · rename_i hpresent
      obtain ⟨rfl, rfl⟩ := Prod.mk.inj (Option.some.inj h)
      refine .of_acks (htodo rfl) rfl fun id hid => ?_
      obtain rfl := Option.some.inj hid
      have hcompleted := hskip job rfl fun hnone =>
        hpresent (Option.isNone_iff_eq_none.mpr hnone)
      exact .inr ⟨job.event, ⟨_, hkept job.entry List.mem_cons_self, hok.job job rfl⟩, hcompleted⟩
  | counting job claimedAt =>
    obtain ⟨rfl, rfl⟩ := Prod.mk.inj (Option.some.inj h)
    exact .of_job hkept hok.job rfl
  | handling job claimedAt attempts => cases h
  | releasing job claimedAt error attempts =>
    obtain ⟨rfl, rfl⟩ := Prod.mk.inj (Option.some.inj h)
    split
    · exact .of_entries hkept rfl rfl
    · exact .of_entries (htodo rfl) rfl rfl
  | acking id todo =>
    obtain ⟨rfl, rfl⟩ := Prod.mk.inj (Option.some.inj h)
    exact .of_entries hkept rfl rfl
  | clearing id todo =>
    obtain ⟨rfl, rfl⟩ := Prod.mk.inj (Option.some.inj h)
    exact .of_entries hkept rfl rfl
  | ended => cases h

theorem act_phaseOk (hok : PhaseOk bus shared worker.group worker.phase)
    (hskip : ∀ job, choice = .proceed → worker.phase = .claiming job →
      shared.claims.get shared.now (IdempotencyStore.key bus worker.consumer job.event) ≠ none →
      Completed shared.log worker.group job.event)
    (h : actOf bus shared worker choice = some (shared', worker')) :
    PhaseOk bus shared' worker'.group worker'.phase := by
  have hgrows := act_grows h
  cases choice with
  | proceed =>
    obtain ⟨⟨next, phase⟩, hproceed, heq⟩ := Option.map_eq_some_iff.mp h
    obtain ⟨rfl, rfl⟩ := Prod.mk.inj heq
    exact proceed_phaseOk hok (fun job => hskip job rfl) hproceed
  | succeed =>
    simp only [actOf] at h
    split at h
    · rename_i job claimedAt attempts hphase
      obtain ⟨rfl, rfl⟩ := Prod.mk.inj (Option.some.inj h)
      have hentries : ∀ entry ∈ job.entry :: job.todo,
          shared.stream.entryAt entry.id = some entry.payload := by
        have hall := hok.entries
        rw [hphase] at hall
        exact hall
      refine .of_acks (fun entry hentry => hentries entry (List.mem_cons_of_mem _ hentry)) rfl
        fun id hid => ?_
      obtain rfl := Option.some.inj hid
      refine .inr ⟨job.event, ⟨_, hentries job.entry List.mem_cons_self, ?_⟩,
        worker.consumer, claimedAt, List.mem_append_right _ List.mem_cons_self⟩
      exact hok.job job (by rw [hphase]; rfl)
    · cases h
  | raise error =>
    simp only [actOf] at h
    split at h
    · rename_i job claimedAt attempts hphase
      obtain ⟨rfl, rfl⟩ := Prod.mk.inj (Option.some.inj h)
      rw [hphase] at hok
      exact .of_job hok.entries hok.job rfl
    · cases h
  | stop =>
    simp only [actOf] at h
    split at h
    · obtain ⟨rfl, rfl⟩ := Prod.mk.inj (Option.some.inj h)
      exact hok
    · cases h
  | crash =>
    simp only [actOf] at h
    split at h
    · obtain ⟨rfl, rfl⟩ := Prod.mk.inj (Option.some.inj h)
      exact .of_nothing rfl rfl rfl
    · cases h

/-! ## What a group has delivered -/

/-- A step that leaves the lists of the groups, or adds to what is pending. -/
theorem NoEventLost.of_lists (h : NoEventLost bus shared) (hgrows : Grows shared shared')
    (hdelivered : ∀ group id, Stream.Delivered group id shared'.stream →
      Stream.Delivered group id shared.stream ∨ Stream.Pending group id shared'.stream)
    (hpending : ∀ group id, Stream.Pending group id shared.stream →
      Stream.Pending group id shared'.stream) : NoEventLost bus shared' := by
  intro group id hid
  rcases hdelivered group id hid with hold | hnew
  · rcases h group id hold with hpend | hsettled
    · exact .inl (hpending group id hpend)
    · exact .inr (hsettled.grows hgrows)
  · exact .inl hnew

theorem NoEventLost.of_stream (h : NoEventLost bus shared) (hgrows : Grows shared shared')
    (hstream : shared'.stream = shared.stream) : NoEventLost bus shared' :=
  h.of_lists hgrows (fun _ _ hid => .inl (hstream ▸ hid)) fun _ _ hid => hstream ▸ hid

theorem proceed_noEventLost {phase phase' : Phase} (hok : PhaseOk bus shared worker.group phase)
    (hlost : NoEventLost bus shared)
    (h : proceed bus worker shared phase = some (shared', phase')) : NoEventLost bus shared' := by
  have hgrows := proceed_grows h
  cases phase with
  | ensuring =>
    obtain ⟨rfl, -⟩ := Prod.mk.inj (Option.some.inj h)
    exact hlost.of_lists hgrows (fun _ _ hid => .inl (Stream.delivered_xgroupCreate.mp hid))
      fun _ _ hid => Stream.pending_xgroupCreate.mpr hid
  | reclaiming passes cursor out =>
    cases passes with
    | zero =>
      obtain ⟨rfl, -⟩ := Prod.mk.inj (Option.some.inj h)
      exact hlost
    | succ passes =>
      have hpass := Option.some.inj h
      unfold reclaimPass at hpass
      split at hpass
      · obtain ⟨rfl, -⟩ := Prod.mk.inj hpass
        exact hlost
      · rename_i hclaim
        obtain ⟨rfl, -⟩ := Prod.mk.inj hpass
        exact hlost.of_lists hgrows
          (fun _ _ hid => .inl ((Stream.delivered_xautoclaim hclaim).mp hid))
          fun _ _ hid => (Stream.pending_xautoclaim hclaim).mpr hid
  | reading =>
    simp only [proceed] at h
    split at h
    · obtain ⟨rfl, -⟩ := Prod.mk.inj (Option.some.inj h)
      exact hlost
    · rename_i hread
      obtain ⟨rfl, -⟩ := Prod.mk.inj (Option.some.inj h)
      exact hlost.of_lists hgrows
        (fun _ _ hid => Stream.pending_of_delivered_xreadgroup hread hid)
        fun _ _ hid => Stream.pending_xreadgroup hread hid
  | recreating =>
    obtain ⟨rfl, -⟩ := Prod.mk.inj (Option.some.inj h)
    exact hlost.of_lists hgrows (fun _ _ hid => .inl (Stream.delivered_xgroupCreate.mp hid))
      fun _ _ hid => Stream.pending_xgroupCreate.mpr hid
  | acking id todo =>
    obtain ⟨rfl, -⟩ := Prod.mk.inj (Option.some.inj h)
    intro group other hdelivered
    rcases hlost group other (Stream.delivered_xack.mp hdelivered) with hpend | hsettled
    · have hleft : (group = worker.group ∧ other = id) ∨
          Stream.Pending group other (shared.stream.xack worker.group id) :=
        Stream.pending_xack hpend
      rcases hleft with ⟨rfl, rfl⟩ | hstays
      · refine .inr ⟨shared.log, [], rfl, ?_⟩
        exact (hok.acks other rfl).grows hgrows fun _ hx => hx
      · exact .inl hstays
    · exact .inr (hsettled.grows hgrows)
  | boundary todo =>
    obtain ⟨rfl, -⟩ := Prod.mk.inj (Option.some.inj h)
    exact hlost
  | parking entry error attempts todo =>
    obtain ⟨rfl, -⟩ := Prod.mk.inj (Option.some.inj h)
    exact hlost.of_stream hgrows rfl
  | claiming job =>
    simp only [proceed] at h
    split at h
    · obtain ⟨rfl, -⟩ := Prod.mk.inj (Option.some.inj h)
      exact hlost.of_stream hgrows rfl
    · obtain ⟨rfl, -⟩ := Prod.mk.inj (Option.some.inj h)
      exact hlost.of_stream hgrows rfl
  | counting job claimedAt =>
    obtain ⟨rfl, -⟩ := Prod.mk.inj (Option.some.inj h)
    exact hlost.of_stream hgrows rfl
  | handling job claimedAt attempts => cases h
  | releasing job claimedAt error attempts =>
    obtain ⟨rfl, -⟩ := Prod.mk.inj (Option.some.inj h)
    exact hlost.of_stream hgrows rfl
  | clearing id todo =>
    obtain ⟨rfl, -⟩ := Prod.mk.inj (Option.some.inj h)
    exact hlost.of_stream hgrows rfl
  | ended => cases h

theorem act_noEventLost (hok : PhaseOk bus shared worker.group worker.phase)
    (hlost : NoEventLost bus shared)
    (h : actOf bus shared worker choice = some (shared', worker')) : NoEventLost bus shared' := by
  have hgrows := act_grows h
  cases choice with
  | proceed =>
    obtain ⟨⟨next, phase⟩, hproceed, heq⟩ := Option.map_eq_some_iff.mp h
    obtain ⟨rfl, rfl⟩ := Prod.mk.inj heq
    exact proceed_noEventLost hok hlost hproceed
  | succeed =>
    simp only [actOf] at h
    split at h
    · obtain ⟨rfl, -⟩ := Prod.mk.inj (Option.some.inj h)
      exact hlost.of_stream hgrows rfl
    · cases h
  | raise error =>
    simp only [actOf] at h
    split at h
    · obtain ⟨rfl, -⟩ := Prod.mk.inj (Option.some.inj h)
      exact hlost
    · cases h
  | stop =>
    simp only [actOf] at h
    split at h
    · obtain ⟨rfl, -⟩ := Prod.mk.inj (Option.some.inj h)
      exact hlost
    · cases h
  | crash =>
    simp only [actOf] at h
    split at h
    · obtain ⟨rfl, -⟩ := Prod.mk.inj (Option.some.inj h)
      exact hlost.of_stream hgrows rfl
    · cases h

/-! ## Whose claim it is -/

/-- What a happening makes of the group that has claimed the event as a consumer. -/
def mark (consumer : String) (event : EventId) (standing : Option String) :
    Happening → Option String
  | .claimed group consumer' event' =>
      if consumer' = consumer ∧ event' = event then some group else standing
  | .abandoned consumer' event' =>
      if consumer' = consumer ∧ event' = event then none else standing
  | _ => standing

/-- The group whose worker made the last claim of the event as this consumer, unless
    a worker has left such a claim behind in a crash since. -/
def standing (consumer : String) (event : EventId) (log : List Happening) : Option String :=
  log.foldl (mark consumer event) none

/-- The worker has its claim of the event in flight. -/
def InFlight (pool : Pool Shared Worker) (group consumer : String) (event : EventId) : Prop :=
  ∃ (i : Nat) (worker : Worker) (claimedAt : Nat), pool.threads[i]? = some worker ∧
    worker.group = group ∧ worker.consumer = consumer ∧
    worker.phase.flight = some (event, claimedAt)

/-- A claim that stands is in flight, or the handler has returned. -/
def ClaimsOk (bus : Bus) (pool : Pool Shared Worker) : Prop :=
  ∀ group consumer event, standing consumer event pool.shared.log = some group →
    pool.shared.claims.get pool.shared.now (IdempotencyStore.key bus consumer event) ≠ none →
    InFlight pool group consumer event ∨ Completed pool.shared.log group event

theorem standing_append {consumer : String} {event : EventId} {log : List Happening}
    {x : Happening} : standing consumer event (log ++ [x]) =
      mark consumer event (standing consumer event log) x := by
  rw [standing, standing, List.foldl_append, List.foldl_cons, List.foldl_nil]

theorem standing_quiet {consumer : String} {event : EventId} {log new : List Happening}
    (hnew : ∀ x ∈ new, x.marksClaim = false) :
    standing consumer event (log ++ new) = standing consumer event log := by
  induction new generalizing log with
  | nil => rw [List.append_nil]
  | cons x new ih =>
    have hfirst : x.marksClaim = false := hnew x List.mem_cons_self
    rw [List.append_cons, ih fun y hy => hnew y (List.mem_cons_of_mem _ hy), standing_append]
    cases x with
    | parked group id => rfl
    | acked group id => rfl
    | _ => cases hfirst

section

variable {pool : Pool Shared Worker} {i : Nat} {next : Worker}

/-- A claim in flight still is after a step, or it was the worker's own. -/
theorem InFlight.step {group consumer : String} {event : EventId}
    (hfound : pool.threads[i]? = some worker) (h : InFlight pool group consumer event) :
    InFlight ⟨shared', pool.threads.set i next⟩ group consumer event ∨
      (worker.group = group ∧ worker.consumer = consumer ∧
        ∃ claimedAt, worker.phase.flight = some (event, claimedAt)) := by
  obtain ⟨j, other, claimedAt, hj, hgroup, hconsumer, hflight⟩ := h
  by_cases hij : i = j
  · subst hij
    obtain rfl := Option.some.inj (hfound.symm.trans hj)
    exact .inr ⟨hgroup, hconsumer, claimedAt, hflight⟩
  · exact .inl ⟨j, other, claimedAt, (Pool.getElem?_set_iff hfound).mpr (.inr ⟨hij, hj⟩),
      hgroup, hconsumer, hflight⟩

theorem InFlight.of_next {claim : EventId × Nat} (hfound : pool.threads[i]? = some worker)
    (hflight : next.phase.flight = some claim) :
    InFlight ⟨shared', pool.threads.set i next⟩ next.group next.consumer claim.1 :=
  ⟨i, next, claim.2, (Pool.getElem?_set_iff hfound).mpr (.inl ⟨rfl, rfl⟩), rfl, rfl, hflight⟩

/-- A step of a worker keeps what stands. -/
theorem claimsOk_act (hfound : pool.threads[i]? = some worker)
    (h : actOf bus pool.shared worker choice = some (shared', next)) (hok : ClaimsOk bus pool) :
    ClaimsOk bus ⟨shared', pool.threads.set i next⟩ := by
  obtain ⟨heffect, hnow⟩ := act_claims h
  obtain ⟨hgroup, hconsumer, -⟩ := act_worker h
  have hgrows := act_grows h
  intro group consumer event hstanding hclaim
  rw [hnow] at hclaim
  -- What stood before still does, unless the claim is the worker's own.
  have hbefore : standing consumer event pool.shared.log = some group →
      pool.shared.claims.get pool.shared.now (IdempotencyStore.key bus consumer event) ≠ none →
      (InFlight ⟨shared', pool.threads.set i next⟩ group consumer event ∨
        (worker.group = group ∧ worker.consumer = consumer ∧
          ∃ claimedAt, worker.phase.flight = some (event, claimedAt))) ∨
      Completed shared'.log group event := by
    intro hstood hclaimed
    rcases hok group consumer event hstood hclaimed with hflight | hcompleted
    · exact .inl (hflight.step hfound)
    · exact .inr (hcompleted.mono fun _ hx => hgrows.mem hx)
  cases heffect with
  | quiet new hclaims hlog hnew hflight =>
    rw [hlog, standing_quiet hnew] at hstanding
    rw [hclaims] at hclaim
    rcases hbefore hstanding hclaim with (hstays | ⟨rfl, rfl, claimedAt, hown⟩) | hcompleted
    · exact .inl hstays
    · rw [← hgroup, ← hconsumer]
      exact .inl (.of_next hfound (hflight.trans hown))
    · exact .inr hcompleted
  | claims event₀ hnone habsent hclaims hlog hflight' =>
    by_cases hsame : worker.consumer = consumer ∧ event₀ = event
    · obtain ⟨rfl, rfl⟩ := hsame
      rw [hlog, standing_append, mark, if_pos ⟨rfl, rfl⟩] at hstanding
      obtain rfl := Option.some.inj hstanding
      rw [← hgroup, ← hconsumer]
      exact .inl (.of_next hfound hflight')
    · rw [hlog, standing_append, mark, if_neg hsame] at hstanding
      rw [hclaims, Strings.get_set_ne fun heq => hsame (key_inj.mp heq)] at hclaim
      rcases hbefore hstanding hclaim with (hstays | ⟨-, -, claimedAt, hown⟩) | hcompleted
      · exact .inl hstays
      · rw [hnone] at hown
        cases hown
      · exact .inr hcompleted
  | completes event₀ claimedAt₀ hflight hclaims hlog hflight' =>
    rw [hlog, standing_append] at hstanding
    rw [hclaims] at hclaim
    rcases hbefore hstanding hclaim with (hstays | ⟨rfl, rfl, claimedAt, hown⟩) | hcompleted
    · exact .inl hstays
    · obtain ⟨rfl, rfl⟩ := Prod.mk.inj (Option.some.inj (hflight.symm.trans hown))
      refine .inr ⟨worker.consumer, claimedAt₀, ?_⟩
      rw [hlog]
      exact List.mem_append_right _ List.mem_cons_self
    · exact .inr hcompleted
  | releases event₀ claimedAt₀ hflight hclaims hlog hflight' =>
    by_cases hsame : worker.consumer = consumer ∧ event₀ = event
    · obtain ⟨rfl, rfl⟩ := hsame
      rw [hclaims, Strings.get_del, if_pos rfl] at hclaim
      exact absurd rfl hclaim
    · rw [hlog] at hstanding
      rw [hclaims, Strings.get_del, if_neg fun heq => hsame (key_inj.mp heq)] at hclaim
      rcases hbefore hstanding hclaim with (hstays | ⟨-, hname, claimedAt, hown⟩) | hcompleted
      · exact .inl hstays
      · obtain ⟨hevent, -⟩ := Prod.mk.inj (Option.some.inj (hflight.symm.trans hown))
        exact absurd ⟨hname, hevent⟩ hsame
      · exact .inr hcompleted
  | abandons event₀ claimedAt₀ hflight hclaims hlog hflight' =>
    by_cases hsame : worker.consumer = consumer ∧ event₀ = event
    · rw [hlog, standing_append, mark, if_pos hsame] at hstanding
      cases hstanding
    · rw [hlog, standing_append, mark, if_neg hsame] at hstanding
      rw [hclaims] at hclaim
      rcases hbefore hstanding hclaim with (hstays | ⟨-, hname, claimedAt, hown⟩) | hcompleted
      · exact .inl hstays
      · obtain ⟨hevent, -⟩ := Prod.mk.inj (Option.some.inj (hflight.symm.trans hown))
        exact absurd ⟨hname, hevent⟩ hsame
      · exact .inr hcompleted

end

/-! ## Every run -/

/-- The worker meets, at its claim, one that a worker of another group has made or
    that was left behind in a crash. -/
def SkipsForeignClaim (bus : Bus) (x : ConsumerMove) : Prop :=
  ∃ (i : Nat) (worker : Worker) (job : Job), x.input = .step i .proceed ∧
    x.pre.threads[i]? = some worker ∧ worker.phase = .claiming job ∧
    x.pre.shared.claims.get x.pre.shared.now
      (IdempotencyStore.key bus worker.consumer job.event) ≠ none ∧
    standing worker.consumer job.event x.pre.shared.log ≠ some worker.group

structure Inv (bus : Bus) (pool : Pool Shared Worker) : Prop where
  names : NamesUnique pool
  claims : ClaimsOk bus pool
  phases : ∀ (i : Nat) (worker : Worker), pool.threads[i]? = some worker →
    PhaseOk bus pool.shared worker.group worker.phase
  kept : NoEventLost bus pool.shared

/-- A worker that skips over a claim of its group skips what the group has handled. -/
theorem Inv.completed_of_skip {pool : Pool Shared Worker} (h : Inv bus pool) {i : Nat} {job : Job}
    (hfound : pool.threads[i]? = some worker) (hphase : worker.phase = .claiming job)
    (hclaimed : pool.shared.claims.get pool.shared.now
      (IdempotencyStore.key bus worker.consumer job.event) ≠ none)
    (hstanding : standing worker.consumer job.event pool.shared.log = some worker.group) :
    Completed pool.shared.log worker.group job.event := by
  rcases h.claims _ _ _ hstanding hclaimed with
    ⟨j, other, claimedAt, hj, hgroup, hconsumer, hflight⟩ | hcompleted
  · have hlive : worker.phase.live = true := by
      rw [hphase]
      rfl
    obtain rfl := h.names j i other worker hj hfound (live_of_flight hflight) hlive hgroup
      hconsumer
    obtain rfl := Option.some.inj (hfound.symm.trans hj)
    rw [hphase] at hflight
    cases hflight
  · exact hcompleted

theorem Inv.move {x : ConsumerMove} (hx : (consumers bus).machine.Makes x)
    (hskip : ¬ SkipsForeignClaim bus x) (h : Inv bus x.pre) : Inv bus x.post := by
  have hnames := namesUnique_move hx h.names
  rcases Pool.makes_cases hx with ⟨new, -, hadmits, hpost⟩ |
    ⟨i, choice, worker, next, hinput, hfound, hact, hthreads⟩ | ⟨event, -, henv, hthreads⟩
  · rw [hpost] at hnames ⊢
    refine ⟨hnames, ?_, ?_, h.kept⟩
    · intro group consumer event hstanding hclaim
      rcases h.claims group consumer event hstanding hclaim with
        ⟨j, other, claimedAt, hj, hrest⟩ | hcompleted
      · exact .inl ⟨j, other, claimedAt, Pool.getElem?_push_iff.mpr (.inl hj), hrest⟩
      · exact .inr hcompleted
    · intro j other hj
      rcases Pool.getElem?_push_iff.mp hj with hold | ⟨-, rfl⟩
      · exact h.phases j other hold
      · cases hphase : new.phase with
        | ensuring => exact .of_nothing rfl rfl rfl
        | _ => simp [consumers, hphase] at hadmits
  · have hpost : x.post = ⟨x.post.shared, x.pre.threads.set i next⟩ := by rw [← hthreads]
    have hgrows := act_grows hact
    rw [hpost] at hnames ⊢
    refine ⟨hnames, claimsOk_act hfound hact h.claims, ?_,
      act_noEventLost (h.phases i worker hfound) h.kept hact⟩
    intro j other hj
    rcases (Pool.getElem?_set_iff hfound).mp hj with ⟨rfl, rfl⟩ | ⟨-, hold⟩
    · refine act_phaseOk (h.phases i worker hfound) ?_ hact
      rintro job rfl hphase hclaimed
      refine h.completed_of_skip hfound hphase hclaimed ?_
      by_contra hforeign
      exact hskip ⟨i, worker, job, hinput, hfound, hphase, hclaimed, hforeign⟩
    · exact (h.phases j other hold).grows hgrows
  · have hpost : x.post = ⟨x.post.shared, x.pre.threads⟩ := by rw [← hthreads]
    rw [hpost] at hnames ⊢
    cases event with
    | publish payload =>
      have hshared := Option.some.inj henv
      have hgrows : Grows x.pre.shared x.post.shared := by
        rw [← hshared]
        exact ⟨⟨[], by simp⟩, fun _ _ hentry => Stream.entryAt_xadd hentry⟩
      refine ⟨hnames, ?_, fun j other hj => (h.phases j other hj).grows hgrows, ?_⟩
      · rw [← hshared]
        exact h.claims
      · refine h.kept.of_lists hgrows (fun _ _ hid => .inl ?_) fun _ _ hid => ?_
        · rw [← hshared] at hid
          exact hid
        · rw [← hshared]
          exact hid
    | tick ms =>
      have hshared := Option.some.inj henv
      have hgrows : Grows x.pre.shared x.post.shared := by
        rw [← hshared]
        exact ⟨⟨[], by simp⟩, fun _ _ hentry => hentry⟩
      refine ⟨hnames, ?_, fun j other hj => (h.phases j other hj).grows hgrows, ?_⟩
      · rw [← hshared]
        intro group consumer event hstanding hclaim
        refine h.claims group consumer event hstanding fun hnone => hclaim ?_
        exact Strings.get_none_later (Nat.le_add_right _ _) hnone
      · exact h.kept.of_stream hgrows (by rw [← hshared])

theorem inv_unpublished : Inv bus unpublished where
  names i j worker worker' hi := by simp [unpublished] at hi
  claims group consumer event hstanding := by cases hstanding
  phases i worker hi := by simp [unpublished] at hi
  kept group id hdelivered := by
    obtain ⟨g, hg, -⟩ := hdelivered
    simp [unpublished, Shared.init, Stream.empty] at hg

/-- No event is lost in a run in which no worker meets a claim of another group, or
    one that was left behind in a crash. -/
theorem no_event_lost {tr : List ConsumerMove} {pool : Pool Shared Worker}
    (h : Run (consumers bus).machine unpublished tr pool)
    (hskip : ∀ x ∈ tr, ¬ SkipsForeignClaim bus x) : NoEventLost bus pool.shared :=
  (Run.invariant_when (fun _ hx hfree hpre => Inv.move hx hfree hpre) h hskip
    inv_unpublished).2.kept

/-! ## A stream of usage events -/

def sampleEvent : EventId := ⟨"00000000-0000-4000-8000-000000000001", by decide⟩

/-- The envelope of a usage event. -/
def sampleEnvelope : List UInt8 :=
  ("\x7b\"event_id\":\"00000000-0000-4000-8000-000000000001\"," ++
    "\"event_type\":\"usage.recorded.v1\",\"producer\":\"ai-gateway\"," ++
    "\"tenant_id\":\"t1\",\"request_id\":\"req-1\",\"payload\":\x7b\"tenant_id\":\"t1\"," ++
    "\"user_id\":\"u1\",\"model\":\"m1\",\"timestamp\":1.0\x7d\x7d").toUTF8.data.toList

def sampleBus : Bus where
  stream := "events:usage:recorded:v1"
  parseEnvelope raw :=
    if raw = sampleEnvelope then .envelope sampleEvent else .malformed "malformed envelope"
  idemPrefix := "events:idem"
  ttlSeconds := 86400
  ttl_pos := by decide

abbrev ConsumerInput := PoolInput Worker Drive Surroundings

def sampleWorker (group : String) : Worker := ⟨group, "worker-0", false, .ensuring⟩

/-- From its start to the claim of the first entry it reads. -/
def readsFirst (i : Nat) : List ConsumerInput :=
  [.step i .proceed, .step i .proceed, .step i .proceed, .step i .proceed, .step i .proceed]

/-- From the claim to the acknowledgement. -/
def handlesClaimed (i : Nat) : List ConsumerInput :=
  [.step i .proceed, .step i .proceed, .step i .succeed, .step i .proceed]

/-- A worker reads an event, handles it and acknowledges it. -/
def handled : List ConsumerInput :=
  [.environment (.publish (some sampleEnvelope)), .spawn (sampleWorker "billing")] ++
    readsFirst 0 ++ handlesClaimed 0

/-- No worker meets a claim where it makes its own. -/
def claimsAll (bus : Bus) (x : ConsumerMove) : Bool :=
  x.pre.threads.all fun worker =>
    match worker.phase with
    | .claiming job => (x.pre.shared.claims.get x.pre.shared.now
        (IdempotencyStore.key bus worker.consumer job.event)).isNone
    | _ => true

theorem not_skips_of_claimsAll {x : ConsumerMove} (h : claimsAll bus x = true) :
    ¬ SkipsForeignClaim bus x := by
  rintro ⟨i, worker, job, -, hfound, hphase, hclaimed, -⟩
  have hfree := List.all_eq_true.mp h worker (List.mem_of_getElem? hfound)
  rw [hphase] at hfree
  exact hclaimed (Option.isNone_iff_eq_none.mp hfree)

theorem no_event_lost_handled :
    ∃ tr pool, Run (consumers sampleBus).machine unpublished tr pool ∧
      .acked "billing" 1 ∈ pool.shared.log ∧ NoEventLost sampleBus pool.shared := by
  obtain ⟨tr, pool, h, -, hcheck⟩ := Machine.exists_run (consumers sampleBus).machine unpublished
    handled
    (fun tr pool => tr.all (claimsAll sampleBus) &&
      decide (.acked "billing" 1 ∈ pool.shared.log))
    (by decide +kernel)
  simp only [Bool.and_eq_true, List.all_eq_true, decide_eq_true_eq] at hcheck
  exact ⟨tr, pool, h, hcheck.2,
    no_event_lost h fun x hx => not_skips_of_claimsAll (hcheck.1 x hx)⟩

/-- Two groups whose workers have one name: the second meets the claim of the first
    and acknowledges the event unhandled. -/
def sharedName : List ConsumerInput :=
  [.environment (.publish (some sampleEnvelope)), .spawn (sampleWorker "billing"),
   .spawn (sampleWorker "observability")] ++
    readsFirst 0 ++ [.step 0 .proceed] ++ readsFirst 1 ++ [.step 1 .proceed, .step 1 .proceed]

/-- The happening lets a group acknowledge. -/
def Happening.allows (group : String) : Happening → Bool
  | .parked group' _ => group' == group
  | .completed group' _ _ _ => group' == group
  | _ => false

theorem not_mayAck {log : List Happening} {group : String} {id : Nat}
    (h : ∀ x ∈ log, x.allows group = false) : ¬ MayAck bus shared log group id := by
  rintro (hparked | ⟨event, -, consumer, claimedAt, hcompleted⟩)
  · simpa [Happening.allows] using h _ hparked
  · simpa [Happening.allows] using h _ hcompleted

theorem lost_to_second_group :
    ∃ tr pool, Run (consumers sampleBus).machine unpublished tr pool ∧
      Stream.Delivered "observability" 1 pool.shared.stream ∧
      ¬ NoEventLost sampleBus pool.shared := by
  obtain ⟨tr, pool, h, -, hcheck⟩ := Machine.exists_run (consumers sampleBus).machine unpublished
    sharedName
    (fun _ pool => pool.shared.log.all (fun x => !x.allows "observability") &&
      (pool.shared.stream.groups["observability"]?).any fun g =>
        g.delivered == 1 && g.pending.isEmpty)
    (by decide +kernel)
  simp only [Bool.and_eq_true, List.all_eq_true, Bool.not_eq_true', Option.any_eq_true,
    beq_iff_eq, List.isEmpty_iff] at hcheck
  obtain ⟨hlog, g, hg, hdelivered, hpending⟩ := hcheck
  have hgone : Stream.Delivered "observability" 1 pool.shared.stream :=
    (Stream.delivered_iff hg).mpr ⟨Nat.le_refl 1, hdelivered.ge⟩
  refine ⟨tr, pool, h, hgone, fun hkept => ?_⟩
  rcases hkept "observability" 1 hgone with hpend | ⟨earlier, later, hsplit, hmay⟩
  · obtain ⟨p, hp, -⟩ := (Stream.pending_iff hg).mp hpend
    rw [hpending] at hp
    cases hp
  · refine not_mayAck (fun x hx => hlog x ?_) hmay
    rw [hsplit]
    exact List.mem_append_left _ hx

end AiPlatform.Events
