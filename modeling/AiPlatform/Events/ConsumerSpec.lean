/-
  AiPlatform.Events.ConsumerSpec

  What one step of a worker does: to the claims of the dedupe table
  (`ClaimEffect`), to what the log and the stream keep (`Grows`), and to the
  worker itself.

  A claim is in flight from the moment a worker has made it until the handler has
  returned, the claim has been released or the worker has crashed.
-/

import AiPlatform.Events.EventConsumer

namespace AiPlatform.Events

open Transition

variable {bus : Bus} {shared shared' : Shared} {worker worker' : Worker} {choice : Drive}

/-! ## The keys of the dedupe table -/

/-- What stands before the last mark, and what stands after it. -/
theorem split_at_last {α : Type*} {mark : α} {xs xs' ys ys' : List α} (hys : mark ∉ ys)
    (hys' : mark ∉ ys') (h : xs ++ mark :: ys = xs' ++ mark :: ys') : xs = xs' ∧ ys = ys' := by
  rcases List.append_eq_append_iff.mp h with ⟨as, hxs, hrest⟩ | ⟨as, hxs, hrest⟩
  · cases as with
    | nil =>
      obtain ⟨-, rfl⟩ := List.cons.inj hrest
      exact ⟨by simpa using hxs.symm, rfl⟩
    | cons a as =>
      obtain ⟨-, heq⟩ := List.cons.inj hrest
      exact absurd (heq ▸ List.mem_append_right as List.mem_cons_self) hys
  · cases as with
    | nil =>
      obtain ⟨-, rfl⟩ := List.cons.inj hrest
      exact ⟨by simpa using hxs, rfl⟩
    | cons a as =>
      obtain ⟨-, heq⟩ := List.cons.inj hrest
      exact absurd (heq ▸ List.mem_append_right as List.mem_cons_self) hys'

/-- A key names one consumer and one event. -/
theorem key_inj {consumer consumer' : String} {event event' : EventId} :
    IdempotencyStore.key bus consumer event = IdempotencyStore.key bus consumer' event' ↔
      consumer = consumer' ∧ event = event' := by
  constructor
  · intro h
    have hlist := congrArg String.toList h
    simp only [IdempotencyStore.key, String.toList_append, List.append_assoc] at hlist
    have hrest := List.append_cancel_left (List.append_cancel_left hlist)
    obtain ⟨hconsumer, hevent⟩ := split_at_last event.2 event'.2 hrest
    exact ⟨String.toList_inj.mp hconsumer, Subtype.ext (String.toList_inj.mp hevent)⟩
  · rintro ⟨rfl, rfl⟩
    rfl

theorem lt_add_ttl (now : Nat) : now < now + IdempotencyStore.ttl bus := by
  have hpos := bus.ttl_pos
  rw [IdempotencyStore.ttl]
  omega

/-! ## The log and the stream -/

/-- The log is written at its end, and the entries of the stream stay. -/
structure Grows (shared shared' : Shared) : Prop where
  log : ∃ new, shared'.log = shared.log ++ new
  entries : ∀ id payload, shared.stream.entryAt id = some payload →
    shared'.stream.entryAt id = some payload

theorem Grows.mem (h : Grows shared shared') {x : Happening} (hx : x ∈ shared.log) :
    x ∈ shared'.log := by
  obtain ⟨new, hlog⟩ := h.log
  rw [hlog]
  exact List.mem_append_left _ hx

theorem proceed_grows {phase phase' : Phase}
    (h : proceed bus worker shared phase = some (shared', phase')) : Grows shared shared' := by
  cases phase with
  | ensuring =>
    obtain ⟨rfl, -⟩ := Prod.mk.inj (Option.some.inj h)
    exact ⟨⟨[], by simp⟩, fun _ _ hentry => by simpa using hentry⟩
  | reclaiming passes cursor out =>
    cases passes with
    | zero =>
      obtain ⟨rfl, -⟩ := Prod.mk.inj (Option.some.inj h)
      exact ⟨⟨[], by simp⟩, fun _ _ hentry => hentry⟩
    | succ passes =>
      have hpass := Option.some.inj h
      unfold reclaimPass at hpass
      split at hpass
      · obtain ⟨rfl, -⟩ := Prod.mk.inj hpass
        exact ⟨⟨[], by simp⟩, fun _ _ hentry => hentry⟩
      · rename_i hclaim
        obtain ⟨rfl, -⟩ := Prod.mk.inj hpass
        exact ⟨⟨[], by simp⟩,
          fun _ _ hentry => (Redis.Stream.entryAt_xautoclaim hclaim).trans hentry⟩
  | boundary todo =>
    obtain ⟨rfl, -⟩ := Prod.mk.inj (Option.some.inj h)
    exact ⟨⟨[], by simp⟩, fun _ _ hentry => hentry⟩
  | reading =>
    simp only [proceed] at h
    split at h
    · obtain ⟨rfl, -⟩ := Prod.mk.inj (Option.some.inj h)
      exact ⟨⟨[], by simp⟩, fun _ _ hentry => hentry⟩
    · rename_i hread
      obtain ⟨rfl, -⟩ := Prod.mk.inj (Option.some.inj h)
      exact ⟨⟨[], by simp⟩,
        fun _ _ hentry => (Redis.Stream.entryAt_xreadgroup hread).trans hentry⟩
  | recreating =>
    obtain ⟨rfl, -⟩ := Prod.mk.inj (Option.some.inj h)
    exact ⟨⟨[], by simp⟩, fun _ _ hentry => by simpa using hentry⟩
  | parking entry error attempts todo =>
    obtain ⟨rfl, -⟩ := Prod.mk.inj (Option.some.inj h)
    exact ⟨⟨_, rfl⟩, fun _ _ hentry => hentry⟩
  | claiming job =>
    simp only [proceed] at h
    split at h
    · obtain ⟨rfl, -⟩ := Prod.mk.inj (Option.some.inj h)
      exact ⟨⟨_, rfl⟩, fun _ _ hentry => hentry⟩
    · obtain ⟨rfl, -⟩ := Prod.mk.inj (Option.some.inj h)
      exact ⟨⟨[], by simp⟩, fun _ _ hentry => hentry⟩
  | counting job claimedAt =>
    obtain ⟨rfl, -⟩ := Prod.mk.inj (Option.some.inj h)
    exact ⟨⟨[], by simp⟩, fun _ _ hentry => hentry⟩
  | handling job claimedAt attempts => cases h
  | releasing job claimedAt error attempts =>
    obtain ⟨rfl, -⟩ := Prod.mk.inj (Option.some.inj h)
    exact ⟨⟨[], by simp⟩, fun _ _ hentry => hentry⟩
  | acking id todo =>
    obtain ⟨rfl, -⟩ := Prod.mk.inj (Option.some.inj h)
    exact ⟨⟨_, rfl⟩, fun _ _ hentry => by simpa using hentry⟩
  | clearing id todo =>
    obtain ⟨rfl, -⟩ := Prod.mk.inj (Option.some.inj h)
    exact ⟨⟨[], by simp⟩, fun _ _ hentry => hentry⟩
  | ended => cases h

theorem act_grows (h : actOf bus shared worker choice = some (shared', worker')) :
    Grows shared shared' := by
  cases choice with
  | proceed =>
    obtain ⟨⟨next, phase⟩, hproceed, heq⟩ := Option.map_eq_some_iff.mp h
    obtain ⟨rfl, -⟩ := Prod.mk.inj heq
    exact proceed_grows hproceed
  | succeed =>
    simp only [actOf] at h
    split at h
    · obtain ⟨rfl, -⟩ := Prod.mk.inj (Option.some.inj h)
      exact ⟨⟨_, rfl⟩, fun _ _ hentry => hentry⟩
    · cases h
  | raise error =>
    simp only [actOf] at h
    split at h
    · obtain ⟨rfl, -⟩ := Prod.mk.inj (Option.some.inj h)
      exact ⟨⟨[], by simp⟩, fun _ _ hentry => hentry⟩
    · cases h
  | stop =>
    simp only [actOf] at h
    split at h
    · obtain ⟨rfl, -⟩ := Prod.mk.inj (Option.some.inj h)
      exact ⟨⟨[], by simp⟩, fun _ _ hentry => hentry⟩
    · cases h
  | crash =>
    simp only [actOf] at h
    split at h
    · obtain ⟨rfl, -⟩ := Prod.mk.inj (Option.some.inj h)
      refine ⟨?_, fun _ _ hentry => hentry⟩
      unfold afterCrash
      split
      · exact ⟨_, rfl⟩
      · exact ⟨[], by simp⟩
    · cases h

/-! ## The worker -/

/-- A step leaves a worker its name, and only one that is there makes it. -/
theorem act_worker (h : actOf bus shared worker choice = some (shared', worker')) :
    worker'.group = worker.group ∧ worker'.consumer = worker.consumer ∧
      worker.phase.live = true := by
  cases choice with
  | proceed =>
    obtain ⟨⟨next, phase⟩, hproceed, heq⟩ := Option.map_eq_some_iff.mp h
    obtain ⟨-, rfl⟩ := Prod.mk.inj heq
    refine ⟨rfl, rfl, ?_⟩
    cases hphase : worker.phase with
    | ended =>
      rw [hphase] at hproceed
      cases hproceed
    | _ => rfl
  | succeed =>
    simp only [actOf] at h
    split at h
    · rename_i hphase
      obtain ⟨-, rfl⟩ := Prod.mk.inj (Option.some.inj h)
      exact ⟨rfl, rfl, by rw [hphase]; rfl⟩
    · cases h
  | raise error =>
    simp only [actOf] at h
    split at h
    · rename_i hphase
      obtain ⟨-, rfl⟩ := Prod.mk.inj (Option.some.inj h)
      exact ⟨rfl, rfl, by rw [hphase]; rfl⟩
    · cases h
  | stop =>
    simp only [actOf] at h
    split at h
    · rename_i hlive
      obtain ⟨-, rfl⟩ := Prod.mk.inj (Option.some.inj h)
      exact ⟨rfl, rfl, hlive⟩
    · cases h
  | crash =>
    simp only [actOf] at h
    split at h
    · rename_i hlive
      obtain ⟨-, rfl⟩ := Prod.mk.inj (Option.some.inj h)
      exact ⟨rfl, rfl, hlive⟩
    · cases h

theorem handleOne_flight (entry : Entry) (todo : List Entry) :
    (handleOne bus entry todo).flight = none := by
  unfold handleOne
  split <;> rfl

theorem live_of_flight {phase : Phase} {claim : EventId × Nat} (h : phase.flight = some claim) :
    phase.live = true := by
  cases phase <;> first | rfl | cases h

/-! ## The claims -/

/-- Is this about a claim? -/
def Happening.marksClaim : Happening → Bool
  | .claimed .. | .completed .. | .abandoned .. => true
  | .parked .. | .acked .. => false

/-- What a step does to the claims, to their marks in the log and to the claim its
    worker has in flight. -/
inductive ClaimEffect (bus : Bus) (shared shared' : Shared) (worker worker' : Worker) : Prop
  | quiet (new : List Happening) (hclaims : shared'.claims = shared.claims)
      (hlog : shared'.log = shared.log ++ new) (hnew : ∀ x ∈ new, x.marksClaim = false)
      (hflight : worker'.phase.flight = worker.phase.flight)
  | claims (event : EventId) (hflight : worker.phase.flight = none)
      (habsent : shared.claims.get shared.now
        (IdempotencyStore.key bus worker.consumer event) = none)
      (hclaims : shared'.claims = shared.claims.set
        (IdempotencyStore.key bus worker.consumer event) ()
        (shared.now + IdempotencyStore.ttl bus))
      (hlog : shared'.log = shared.log ++ [.claimed worker.group worker.consumer event])
      (hflight' : worker'.phase.flight = some (event, shared.now))
  | completes (event : EventId) (claimedAt : Nat)
      (hflight : worker.phase.flight = some (event, claimedAt))
      (hclaims : shared'.claims = shared.claims)
      (hlog : shared'.log =
        shared.log ++ [.completed worker.group worker.consumer event claimedAt])
      (hflight' : worker'.phase.flight = none)
  | releases (event : EventId) (claimedAt : Nat)
      (hflight : worker.phase.flight = some (event, claimedAt))
      (hclaims : shared'.claims = shared.claims.del
        (IdempotencyStore.key bus worker.consumer event))
      (hlog : shared'.log = shared.log) (hflight' : worker'.phase.flight = none)
  | abandons (event : EventId) (claimedAt : Nat)
      (hflight : worker.phase.flight = some (event, claimedAt))
      (hclaims : shared'.claims = shared.claims)
      (hlog : shared'.log = shared.log ++ [.abandoned worker.consumer event])
      (hflight' : worker'.phase.flight = none)

theorem ClaimEffect.still (hclaims : shared'.claims = shared.claims)
    (hlog : shared'.log = shared.log) (hflight : worker'.phase.flight = worker.phase.flight) :
    ClaimEffect bus shared shared' worker worker' :=
  .quiet [] hclaims (by rw [hlog, List.append_nil]) nofun hflight

theorem proceed_claims {phase phase' : Phase} (hphase : worker.phase = phase)
    (h : proceed bus worker shared phase = some (shared', phase')) :
    ClaimEffect bus shared shared' worker { worker with phase := phase' } ∧
      shared'.now = shared.now := by
  have hflight : worker.phase.flight = phase.flight := congrArg Phase.flight hphase
  cases phase with
  | ensuring =>
    obtain ⟨rfl, rfl⟩ := Prod.mk.inj (Option.some.inj h)
    exact ⟨.still rfl rfl hflight.symm, rfl⟩
  | reclaiming passes cursor out =>
    cases passes with
    | zero =>
      obtain ⟨rfl, rfl⟩ := Prod.mk.inj (Option.some.inj h)
      exact ⟨.still rfl rfl hflight.symm, rfl⟩
    | succ passes =>
      have hpass := Option.some.inj h
      unfold reclaimPass at hpass
      split at hpass
      · obtain ⟨rfl, rfl⟩ := Prod.mk.inj hpass
        exact ⟨.still rfl rfl hflight.symm, rfl⟩
      · obtain ⟨rfl, rfl⟩ := Prod.mk.inj hpass
        refine ⟨.still rfl rfl ?_, rfl⟩
        rw [hflight]
        dsimp only
        split <;> rfl
  | boundary todo =>
    obtain ⟨rfl, rfl⟩ := Prod.mk.inj (Option.some.inj h)
    refine ⟨.still rfl rfl ?_, rfl⟩
    rw [hflight]
    dsimp only
    split
    · rfl
    · cases todo with
      | nil => rfl
      | cons entry rest => exact handleOne_flight entry rest
  | reading =>
    simp only [proceed] at h
    split at h
    · obtain ⟨rfl, rfl⟩ := Prod.mk.inj (Option.some.inj h)
      exact ⟨.still rfl rfl hflight.symm, rfl⟩
    · obtain ⟨rfl, rfl⟩ := Prod.mk.inj (Option.some.inj h)
      exact ⟨.still rfl rfl hflight.symm, rfl⟩
  | recreating =>
    obtain ⟨rfl, rfl⟩ := Prod.mk.inj (Option.some.inj h)
    exact ⟨.still rfl rfl hflight.symm, rfl⟩
  | parking entry error attempts todo =>
    obtain ⟨rfl, rfl⟩ := Prod.mk.inj (Option.some.inj h)
    exact ⟨.quiet _ rfl rfl (by simp [Happening.marksClaim]) hflight.symm, rfl⟩
  | claiming job =>
    simp only [proceed, IdempotencyStore.claim, Redis.Strings.setNx_fst] at h
    split at h
    · rename_i habsent
      obtain ⟨rfl, rfl⟩ := Prod.mk.inj (Option.some.inj h)
      have hnone := Option.isNone_iff_eq_none.mp habsent
      refine ⟨.claims job.event hflight hnone ?_ rfl rfl, rfl⟩
      simp [Redis.Strings.setNx, hnone]
    · rename_i hpresent
      obtain ⟨rfl, rfl⟩ := Prod.mk.inj (Option.some.inj h)
      refine ⟨.still ?_ rfl hflight.symm, rfl⟩
      have hsome := Option.isSome_iff_ne_none.mpr fun hnone =>
        hpresent (Option.isNone_iff_eq_none.mpr hnone)
      simp [Redis.Strings.setNx, hsome]
  | counting job claimedAt =>
    obtain ⟨rfl, rfl⟩ := Prod.mk.inj (Option.some.inj h)
    exact ⟨.still rfl rfl hflight.symm, rfl⟩
  | handling job claimedAt attempts => cases h
  | releasing job claimedAt error attempts =>
    obtain ⟨rfl, rfl⟩ := Prod.mk.inj (Option.some.inj h)
    refine ⟨.releases job.event claimedAt hflight rfl rfl ?_, rfl⟩
    dsimp only
    split <;> rfl
  | acking id todo =>
    obtain ⟨rfl, rfl⟩ := Prod.mk.inj (Option.some.inj h)
    exact ⟨.quiet _ rfl rfl (by simp [Happening.marksClaim]) hflight.symm, rfl⟩
  | clearing id todo =>
    obtain ⟨rfl, rfl⟩ := Prod.mk.inj (Option.some.inj h)
    exact ⟨.still rfl rfl hflight.symm, rfl⟩
  | ended => cases h

theorem act_claims (h : actOf bus shared worker choice = some (shared', worker')) :
    ClaimEffect bus shared shared' worker worker' ∧ shared'.now = shared.now := by
  cases choice with
  | proceed =>
    obtain ⟨⟨next, phase⟩, hproceed, heq⟩ := Option.map_eq_some_iff.mp h
    obtain ⟨rfl, rfl⟩ := Prod.mk.inj heq
    exact proceed_claims rfl hproceed
  | succeed =>
    simp only [actOf] at h
    split at h
    · rename_i job claimedAt attempts hphase
      obtain ⟨rfl, rfl⟩ := Prod.mk.inj (Option.some.inj h)
      exact ⟨.completes job.event claimedAt (congrArg Phase.flight hphase) rfl rfl rfl, rfl⟩
    · cases h
  | raise error =>
    simp only [actOf] at h
    split at h
    · rename_i hphase
      obtain ⟨rfl, rfl⟩ := Prod.mk.inj (Option.some.inj h)
      exact ⟨.still rfl rfl (congrArg Phase.flight hphase).symm, rfl⟩
    · cases h
  | stop =>
    simp only [actOf] at h
    split at h
    · obtain ⟨rfl, rfl⟩ := Prod.mk.inj (Option.some.inj h)
      exact ⟨.still rfl rfl rfl, rfl⟩
    · cases h
  | crash =>
    simp only [actOf] at h
    split at h
    · obtain ⟨rfl, rfl⟩ := Prod.mk.inj (Option.some.inj h)
      refine ⟨?_, rfl⟩
      cases hflight : worker.phase.flight with
      | none =>
        exact .still rfl (by simp [afterCrash, hflight]) hflight.symm
      | some claim =>
        exact .abandons claim.1 claim.2 hflight rfl (by simp [afterCrash, hflight]) rfl
    · cases h

/-! ## Names -/

/-- No two workers that are there have one name in one group. -/
def NamesUnique (pool : Pool Shared Worker) : Prop :=
  ∀ (i j : Nat) (worker worker' : Worker),
    pool.threads[i]? = some worker → pool.threads[j]? = some worker' →
    worker.phase.live = true → worker'.phase.live = true → worker.group = worker'.group →
    worker.consumer = worker'.consumer → i = j

theorem namesUnique_move {x : ConsumerMove} (hx : (consumers bus).machine.Makes x)
    (h : NamesUnique x.pre) : NamesUnique x.post := by
  rcases Pool.makes_cases hx with ⟨new, -, hadmits, hpost⟩ |
    ⟨i, choice, worker, next, -, hfound, hact, hthreads⟩ | ⟨event, -, -, hthreads⟩
  · rw [hpost]
    simp only [consumers, Bool.and_eq_true, List.all_eq_true, Bool.not_eq_true',
      Bool.and_eq_false_imp, beq_iff_eq, beq_eq_false_iff_ne] at hadmits
    have hother : ∀ (j : Nat) (other : Worker), x.pre.threads[j]? = some other → other.phase.live = true →
        other.group = new.group → other.consumer ≠ new.consumer := fun j other hj hlive hgroup =>
      hadmits.2 other (List.mem_of_getElem? hj) ⟨hlive, hgroup⟩
    intro j k worker worker' hj hk hlive hlive' hgroup hconsumer
    rcases Pool.getElem?_push_iff.mp hj with hj | ⟨rfl, rfl⟩
    · rcases Pool.getElem?_push_iff.mp hk with hk | ⟨rfl, rfl⟩
      · exact h j k worker worker' hj hk hlive hlive' hgroup hconsumer
      · exact absurd hconsumer (hother j worker hj hlive hgroup)
    · rcases Pool.getElem?_push_iff.mp hk with hk | ⟨rfl, -⟩
      · exact absurd hconsumer.symm (hother k worker' hk hlive' hgroup.symm)
      · rfl
  · obtain ⟨hgroup, hconsumer, hlive⟩ := act_worker hact
    -- Each worker there is now was there under the same name.
    have hback : ∀ {j : Nat} {other : Worker}, x.post.threads[j]? = some other →
        other.phase.live = true → ∃ old : Worker, x.pre.threads[j]? = some old ∧ old.phase.live = true ∧
          old.group = other.group ∧ old.consumer = other.consumer := by
      intro j other hj hlives
      rw [hthreads] at hj
      rcases (Pool.getElem?_set_iff hfound).mp hj with ⟨rfl, rfl⟩ | ⟨-, hj⟩
      · exact ⟨worker, hfound, hlive, hgroup.symm, hconsumer.symm⟩
      · exact ⟨other, hj, hlives, rfl, rfl⟩
    intro j k first second hj hk hfirst hsecond hsame hname
    obtain ⟨old, hold, hlives, hg, hc⟩ := hback hj hfirst
    obtain ⟨old', hold', hlives', hg', hc'⟩ := hback hk hsecond
    exact h j k old old' hold hold' hlives hlives' (by rw [hg, hg', hsame])
      (by rw [hc, hc', hname])
  · rw [NamesUnique, hthreads]
    exact h

end AiPlatform.Events
