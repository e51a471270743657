/-
  AiPlatform.Events.NoRepeat

  What the dedupe table gives: while the time to live of a claim runs whose handler
  has returned, no worker of its consumer name claims the event again, unless a
  worker of another group shares the name and releases the claim.

  The name of the consumer is part of the key, so nothing of this is said of the
  other workers of the group: one of them that reclaims the entry starts the
  handler once more.
-/

import AiPlatform.Events.NoLoss

namespace AiPlatform.Events

open Transition Redis

variable {bus : Bus} {pool : Pool Shared Worker} {shared' : Shared} {worker next : Worker}
  {choice : Drive}

/-- Only workers of the group have claimed the event as this consumer. -/
def OnlyGroup (log : List Happening) (consumer : String) (event : EventId) (group : String) :
    Prop :=
  ∀ group', .claimed group' consumer event ∈ log → group' = group

theorem OnlyGroup.mono {log log' : List Happening} {consumer group : String} {event : EventId}
    (hmem : ∀ x ∈ log, x ∈ log') (h : OnlyGroup log' consumer event group) :
    OnlyGroup log consumer event group :=
  fun group' hx => h group' (hmem _ hx)

/-- The claim a worker has in flight. -/
def Flies (pool : Pool Shared Worker) (i : Nat) (worker : Worker) (event : EventId)
    (claimedAt : Nat) : Prop :=
  pool.threads[i]? = some worker ∧ worker.phase.flight = some (event, claimedAt)

/-- The key of the claim made at this instant is still there. -/
def Claimed (bus : Bus) (shared : Shared) (consumer : String) (event : EventId)
    (claimedAt : Nat) : Prop :=
  shared.claims.entries[IdempotencyStore.key bus consumer event]? =
    some ((), claimedAt + IdempotencyStore.ttl bus)

structure DedupeOk (bus : Bus) (pool : Pool Shared Worker) : Prop where
  names : NamesUnique pool
  logged : ∀ i worker event claimedAt, Flies pool i worker event claimedAt →
    .claimed worker.group worker.consumer event ∈ pool.shared.log
  held : ∀ i worker event claimedAt, Flies pool i worker event claimedAt →
    OnlyGroup pool.shared.log worker.consumer event worker.group →
    pool.shared.now < claimedAt + IdempotencyStore.ttl bus →
    Claimed bus pool.shared worker.consumer event claimedAt
  done : ∀ group consumer event claimedAt,
    .completed group consumer event claimedAt ∈ pool.shared.log →
    OnlyGroup pool.shared.log consumer event group →
    pool.shared.now < claimedAt + IdempotencyStore.ttl bus →
    Claimed bus pool.shared consumer event claimedAt ∧
      ∀ i worker claimedAt', Flies pool i worker event claimedAt' → worker.consumer ≠ consumer

/-- A claim that is there and has not expired is in the way of the next one. -/
theorem Claimed.present {shared : Shared} {consumer : String} {event : EventId} {claimedAt : Nat}
    (h : Claimed bus shared consumer event claimedAt)
    (hlive : shared.now < claimedAt + IdempotencyStore.ttl bus) :
    shared.claims.get shared.now (IdempotencyStore.key bus consumer event) ≠ none := by
  rw [Strings.get_eq_some.mpr ⟨_, h, hlive⟩]
  nofun

namespace DedupeOk

/-- Of two workers that have claimed an event as one consumer, under a name that is
    their group's alone, one is the other. -/
theorem unique (h : DedupeOk bus pool) {i j : Nat} {worker other : Worker} {event : EventId}
    {claimedAt claimedAt' : Nat} (hi : Flies pool i worker event claimedAt)
    (hj : Flies pool j other event claimedAt') (hname : worker.consumer = other.consumer)
    (honly : OnlyGroup pool.shared.log other.consumer event other.group) : i = j := by
  have hgroup : worker.group = other.group :=
    honly _ (hname ▸ h.logged i worker event claimedAt hi)
  exact h.names i j worker other hi.1 hj.1 (live_of_flight hi.2) (live_of_flight hj.2) hgroup hname

section

/-- The worker at a place has made a step. -/
structure Stepped (pool : Pool Shared Worker) (shared' : Shared) (i : Nat) (worker next : Worker) :
    Prop where
  found : pool.threads[i]? = some worker
  now : shared'.now = pool.shared.now
  group : next.group = worker.group
  consumer : next.consumer = worker.consumer
  log : ∀ x ∈ pool.shared.log, x ∈ shared'.log
  names : NamesUnique ⟨shared', pool.threads.set i next⟩

variable {i : Nat}

/-- After a step, the others have in flight what they had. -/
theorem Stepped.flies (hs : Stepped pool shared' i worker next) {j : Nat} {other : Worker}
    {event : EventId} {claimedAt : Nat}
    (h : Flies ⟨shared', pool.threads.set i next⟩ j other event claimedAt) :
    (i = j ∧ next = other ∧ next.phase.flight = some (event, claimedAt)) ∨
      (i ≠ j ∧ Flies pool j other event claimedAt) := by
  obtain ⟨hj, hflight⟩ := h
  rcases (Pool.getElem?_set_iff hs.found).mp hj with ⟨rfl, rfl⟩ | ⟨hne, hold⟩
  · exact .inl ⟨rfl, rfl, hflight⟩
  · exact .inr ⟨hne, hold, hflight⟩

/-- A step after which the worker has nothing in flight. -/
theorem Stepped.flies_of_landed (hs : Stepped pool shared' i worker next)
    (hlanded : next.phase.flight = none) {j : Nat} {other : Worker} {event : EventId}
    {claimedAt : Nat} (h : Flies ⟨shared', pool.threads.set i next⟩ j other event claimedAt) :
    i ≠ j ∧ Flies pool j other event claimedAt := by
  rcases hs.flies h with ⟨-, -, hflight⟩ | hold
  · rw [hlanded] at hflight
    cases hflight
  · exact hold

/-- A step that leaves the claims, their marks and what is in flight. -/
theorem quiet (h : DedupeOk bus pool) (hs : Stepped pool shared' i worker next)
    (hclaims : shared'.claims = pool.shared.claims)
    (hback : ∀ x ∈ shared'.log, x.marksClaim = true → x ∈ pool.shared.log)
    (hflight : next.phase.flight = worker.phase.flight) :
    DedupeOk bus ⟨shared', pool.threads.set i next⟩ := by
  have hsame : ∀ {j other event claimedAt},
      Flies ⟨shared', pool.threads.set i next⟩ j other event claimedAt →
      ∃ old, Flies pool j old event claimedAt ∧ old.group = other.group ∧
        old.consumer = other.consumer := by
    intro j other event claimedAt hj
    rcases hs.flies hj with ⟨rfl, rfl, hown⟩ | ⟨-, hold⟩
    · exact ⟨worker, ⟨hs.found, hflight ▸ hown⟩, hs.group.symm, hs.consumer.symm⟩
    · exact ⟨other, hold, rfl, rfl⟩
  refine ⟨hs.names, ?_, ?_, ?_⟩
  · intro j other event claimedAt hj
    obtain ⟨old, hold, hg, hc⟩ := hsame hj
    rw [← hg, ← hc]
    exact hs.log _ (h.logged j old event claimedAt hold)
  · intro j other event claimedAt hj honly hlive
    obtain ⟨old, hold, hg, hc⟩ := hsame hj
    rw [← hc, ← hg] at honly
    rw [Claimed, hclaims, ← hc]
    exact h.held j old event claimedAt hold (honly.mono hs.log) (hs.now ▸ hlive)
  · intro group consumer event claimedAt hcompleted honly hlive
    obtain ⟨hclaimed, hnone⟩ := h.done group consumer event claimedAt
      (hback _ hcompleted rfl) (honly.mono hs.log) (hs.now ▸ hlive)
    refine ⟨?_, fun j other claimedAt' hj => ?_⟩
    · rw [Claimed, hclaims]
      exact hclaimed
    · obtain ⟨old, hold, -, hc⟩ := hsame hj
      exact hc ▸ hnone j old claimedAt' hold

/-- A claim is made, where there was none. -/
theorem claims (h : DedupeOk bus pool) (hs : Stepped pool shared' i worker next) {event₀ : EventId}
    (habsent : pool.shared.claims.get pool.shared.now
      (IdempotencyStore.key bus worker.consumer event₀) = none)
    (hclaims : shared'.claims = pool.shared.claims.set
      (IdempotencyStore.key bus worker.consumer event₀) ()
      (pool.shared.now + IdempotencyStore.ttl bus))
    (hlog : shared'.log = pool.shared.log ++ [.claimed worker.group worker.consumer event₀])
    (hflight : next.phase.flight = some (event₀, pool.shared.now)) :
    DedupeOk bus ⟨shared', pool.threads.set i next⟩ := by
  -- What stands of another key stays; of this one nothing did.
  have hstays : ∀ {consumer : String} {event : EventId} {claimedAt : Nat},
      Claimed bus pool.shared consumer event claimedAt →
      pool.shared.now < claimedAt + IdempotencyStore.ttl bus →
      Claimed bus shared' consumer event claimedAt ∧
        ¬ (worker.consumer = consumer ∧ event₀ = event) := by
    intro consumer event claimedAt hclaimed hlive
    have hother : ¬ (worker.consumer = consumer ∧ event₀ = event) := by
      rintro ⟨rfl, rfl⟩
      exact hclaimed.present hlive habsent
    refine ⟨?_, hother⟩
    rw [Claimed, hclaims, Strings.entries_set, if_neg fun heq => hother (key_inj.mp heq)]
    exact hclaimed
  refine ⟨hs.names, ?_, ?_, ?_⟩
  · intro j other event claimedAt hj
    rcases hs.flies hj with ⟨rfl, rfl, hown⟩ | ⟨-, hold⟩
    · obtain ⟨rfl, -⟩ := Prod.mk.inj (Option.some.inj (hflight.symm.trans hown))
      rw [hlog, hs.group, hs.consumer]
      exact List.mem_append_right _ List.mem_cons_self
    · exact hs.log _ (h.logged j other event claimedAt hold)
  · intro j other event claimedAt hj honly hlive
    rcases hs.flies hj with ⟨rfl, rfl, hown⟩ | ⟨-, hold⟩
    · obtain ⟨rfl, rfl⟩ := Prod.mk.inj (Option.some.inj (hflight.symm.trans hown))
      rw [Claimed, hclaims, hs.consumer, Strings.entries_set, if_pos rfl]
    · exact (hstays (h.held j other event claimedAt hold (honly.mono hs.log) (hs.now ▸ hlive))
        (hs.now ▸ hlive)).1
  · intro group consumer event claimedAt hcompleted honly hlive
    have hbefore : .completed group consumer event claimedAt ∈ pool.shared.log := by
      rw [hlog] at hcompleted
      rcases List.mem_append.mp hcompleted with hold | hnew
      · exact hold
      · cases List.mem_singleton.mp hnew
    obtain ⟨hclaimed, hnone⟩ := h.done group consumer event claimedAt hbefore
      (honly.mono hs.log) (hs.now ▸ hlive)
    obtain ⟨hclaimed', hother⟩ := hstays hclaimed (hs.now ▸ hlive)
    refine ⟨hclaimed', fun j other claimedAt' hj hname => ?_⟩
    rcases hs.flies hj with ⟨rfl, rfl, hown⟩ | ⟨-, hold⟩
    · obtain ⟨rfl, -⟩ := Prod.mk.inj (Option.some.inj (hflight.symm.trans hown))
      exact hother ⟨hs.consumer ▸ hname, rfl⟩
    · exact hnone j other claimedAt' hold hname

/-- The handler returns: its claim stays, and nobody else has one in flight. -/
theorem completes (h : DedupeOk bus pool) (hs : Stepped pool shared' i worker next)
    {event₀ : EventId} {claimedAt₀ : Nat}
    (hflight : worker.phase.flight = some (event₀, claimedAt₀))
    (hclaims : shared'.claims = pool.shared.claims)
    (hlog : shared'.log =
      pool.shared.log ++ [.completed worker.group worker.consumer event₀ claimedAt₀])
    (hlanded : next.phase.flight = none) :
    DedupeOk bus ⟨shared', pool.threads.set i next⟩ := by
  refine ⟨hs.names, ?_, ?_, ?_⟩
  · intro j other event claimedAt hj
    exact hs.log _ (h.logged j other event claimedAt (hs.flies_of_landed hlanded hj).2)
  · intro j other event claimedAt hj honly hlive
    rw [Claimed, hclaims]
    exact h.held j other event claimedAt (hs.flies_of_landed hlanded hj).2 (honly.mono hs.log)
      (hs.now ▸ hlive)
  · intro group consumer event claimedAt hcompleted honly hlive
    rw [hlog] at hcompleted
    rw [Claimed, hclaims]
    rcases List.mem_append.mp hcompleted with hold | hnew
    · obtain ⟨hclaimed, hnone⟩ := h.done group consumer event claimedAt hold (honly.mono hs.log)
        (hs.now ▸ hlive)
      exact ⟨hclaimed, fun j other claimedAt' hj =>
        hnone j other claimedAt' (hs.flies_of_landed hlanded hj).2⟩
    · obtain ⟨rfl, rfl, rfl, rfl⟩ := Happening.completed.inj (List.mem_singleton.mp hnew)
      have hfly : Flies pool i worker event claimedAt := ⟨hs.found, hflight⟩
      refine ⟨h.held i worker event claimedAt hfly (honly.mono hs.log) (hs.now ▸ hlive), ?_⟩
      intro j other claimedAt' hj hname
      obtain ⟨hne, hold⟩ := hs.flies_of_landed hlanded hj
      exact hne (h.unique hold hfly hname (honly.mono hs.log)).symm

/-- A claim is released; it was nobody else's. -/
theorem releases (h : DedupeOk bus pool) (hs : Stepped pool shared' i worker next)
    {event₀ : EventId} {claimedAt₀ : Nat}
    (hflight : worker.phase.flight = some (event₀, claimedAt₀))
    (hclaims : shared'.claims = pool.shared.claims.del
      (IdempotencyStore.key bus worker.consumer event₀))
    (hlog : shared'.log = pool.shared.log) (hlanded : next.phase.flight = none) :
    DedupeOk bus ⟨shared', pool.threads.set i next⟩ := by
  have hfly : Flies pool i worker event₀ claimedAt₀ := ⟨hs.found, hflight⟩
  have hstays : ∀ {consumer : String} {event : EventId} {claimedAt : Nat},
      Claimed bus pool.shared consumer event claimedAt →
      ¬ (worker.consumer = consumer ∧ event₀ = event) →
      Claimed bus shared' consumer event claimedAt := by
    intro consumer event claimedAt hclaimed hother
    rw [Claimed, hclaims, Strings.entries_del, if_neg fun heq => hother (key_inj.mp heq)]
    exact hclaimed
  refine ⟨hs.names, ?_, ?_, ?_⟩
  · intro j other event claimedAt hj
    exact hs.log _ (h.logged j other event claimedAt (hs.flies_of_landed hlanded hj).2)
  · intro j other event claimedAt hj honly hlive
    obtain ⟨hne, hold⟩ := hs.flies_of_landed hlanded hj
    refine hstays (h.held j other event claimedAt hold (honly.mono hs.log) (hs.now ▸ hlive)) ?_
    rintro ⟨hname, rfl⟩
    exact hne (h.unique hfly hold hname (honly.mono hs.log))
  · intro group consumer event claimedAt hcompleted honly hlive
    rw [hlog] at hcompleted
    obtain ⟨hclaimed, hnone⟩ := h.done group consumer event claimedAt hcompleted
      (honly.mono hs.log) (hs.now ▸ hlive)
    refine ⟨hstays hclaimed ?_, fun j other claimedAt' hj =>
      hnone j other claimedAt' (hs.flies_of_landed hlanded hj).2⟩
    rintro ⟨hname, rfl⟩
    exact hnone i worker claimedAt₀ hfly hname

/-- A worker crashes and leaves its claim behind. -/
theorem abandons (h : DedupeOk bus pool) (hs : Stepped pool shared' i worker next)
    {event₀ : EventId} (hclaims : shared'.claims = pool.shared.claims)
    (hlog : shared'.log = pool.shared.log ++ [.abandoned worker.consumer event₀])
    (hlanded : next.phase.flight = none) :
    DedupeOk bus ⟨shared', pool.threads.set i next⟩ := by
  refine ⟨hs.names, ?_, ?_, ?_⟩
  · intro j other event claimedAt hj
    exact hs.log _ (h.logged j other event claimedAt (hs.flies_of_landed hlanded hj).2)
  · intro j other event claimedAt hj honly hlive
    rw [Claimed, hclaims]
    exact h.held j other event claimedAt (hs.flies_of_landed hlanded hj).2 (honly.mono hs.log)
      (hs.now ▸ hlive)
  · intro group consumer event claimedAt hcompleted honly hlive
    rw [hlog] at hcompleted
    rw [Claimed, hclaims]
    rcases List.mem_append.mp hcompleted with hold | hnew
    · obtain ⟨hclaimed, hnone⟩ := h.done group consumer event claimedAt hold (honly.mono hs.log)
        (hs.now ▸ hlive)
      exact ⟨hclaimed, fun j other claimedAt' hj =>
        hnone j other claimedAt' (hs.flies_of_landed hlanded hj).2⟩
    · cases List.mem_singleton.mp hnew

theorem act (h : DedupeOk bus pool) (hfound : pool.threads[i]? = some worker)
    (hact : actOf bus pool.shared worker choice = some (shared', next))
    (hnames : NamesUnique ⟨shared', pool.threads.set i next⟩) :
    DedupeOk bus ⟨shared', pool.threads.set i next⟩ := by
  obtain ⟨heffect, hnow⟩ := act_claims hact
  obtain ⟨hgroup, hconsumer, -⟩ := act_worker hact
  have hs : Stepped pool shared' i worker next :=
    ⟨hfound, hnow, hgroup, hconsumer, fun _ hx => (act_grows hact).mem hx, hnames⟩
  cases heffect with
  | quiet new hclaims hlog hnew hflight =>
    refine h.quiet hs hclaims (fun x hx hmark => ?_) hflight
    rw [hlog] at hx
    rcases List.mem_append.mp hx with hold | hadded
    · exact hold
    · rw [hnew x hadded] at hmark
      cases hmark
  | claims event₀ hidle habsent hclaims hlog hflight => exact h.claims hs habsent hclaims hlog hflight
  | completes event₀ claimedAt₀ hflight hclaims hlog hlanded =>
    exact h.completes hs hflight hclaims hlog hlanded
  | releases event₀ claimedAt₀ hflight hclaims hlog hlanded =>
    exact h.releases hs hflight hclaims hlog hlanded
  | abandons event₀ claimedAt₀ hflight hclaims hlog hlanded =>
    exact h.abandons hs hclaims hlog hlanded

end

theorem move {x : ConsumerMove} (hx : (consumers bus).machine.Makes x)
    (h : DedupeOk bus x.pre) : DedupeOk bus x.post := by
  have hnames := namesUnique_move hx h.names
  rcases Pool.makes_cases hx with ⟨new, -, hadmits, hpost⟩ |
    ⟨i, choice, worker, next, -, hfound, hact, hthreads⟩ | ⟨event, -, henv, hthreads⟩
  · rw [hpost] at hnames ⊢
    have hnew : new.phase.flight = none := by
      cases hphase : new.phase with
      | ensuring => rfl
      | _ => simp [consumers, hphase] at hadmits
    have hold : ∀ {j other event claimedAt},
        Flies ⟨x.pre.shared, x.pre.threads ++ [new]⟩ j other event claimedAt →
        Flies x.pre j other event claimedAt := by
      rintro j other event claimedAt ⟨hj, hflight⟩
      rcases Pool.getElem?_push_iff.mp hj with hj | ⟨-, rfl⟩
      · exact ⟨hj, hflight⟩
      · rw [hnew] at hflight
        cases hflight
    refine ⟨hnames, fun j other event claimedAt hj => h.logged _ _ _ _ (hold hj),
      fun j other event claimedAt hj => h.held _ _ _ _ (hold hj), ?_⟩
    intro group consumer event claimedAt hcompleted honly hlive
    obtain ⟨hclaimed, hnone⟩ := h.done group consumer event claimedAt hcompleted honly hlive
    exact ⟨hclaimed, fun j other claimedAt' hj => hnone j other claimedAt' (hold hj)⟩
  · have hpost : x.post = ⟨x.post.shared, x.pre.threads.set i next⟩ := by rw [← hthreads]
    rw [hpost] at hnames ⊢
    exact h.act hfound hact hnames
  · have hpost : x.post = ⟨x.post.shared, x.pre.threads⟩ := by rw [← hthreads]
    have henvironment : x.pre.shared.now ≤ x.post.shared.now ∧
        x.post.shared.claims = x.pre.shared.claims ∧ x.post.shared.log = x.pre.shared.log := by
      cases event with
      | publish payload =>
        rw [← Option.some.inj henv]
        exact ⟨Nat.le_refl _, rfl, rfl⟩
      | tick ms =>
        rw [← Option.some.inj henv]
        exact ⟨Nat.le_add_right _ _, rfl, rfl⟩
    obtain ⟨hle, hclaims, hlog⟩ := henvironment
    rw [hpost] at hnames ⊢
    refine ⟨hnames, ?_, ?_, ?_⟩
    · intro j other event claimedAt hj
      rw [hlog]
      exact h.logged j other event claimedAt hj
    · intro j other event claimedAt hj honly hlive
      rw [hlog] at honly
      rw [Claimed, hclaims]
      exact h.held j other event claimedAt hj honly (hle.trans_lt hlive)
    · intro group consumer event claimedAt hcompleted honly hlive
      rw [hlog] at hcompleted honly
      rw [Claimed, hclaims]
      exact h.done group consumer event claimedAt hcompleted honly (hle.trans_lt hlive)

end DedupeOk

theorem dedupeOk_unpublished : DedupeOk bus unpublished where
  names i j worker worker' hi := by simp [unpublished] at hi
  logged i worker event claimedAt hi := by simp [Flies, unpublished] at hi
  held i worker event claimedAt hi := by simp [Flies, unpublished] at hi
  done group consumer event claimedAt hcompleted := by cases hcompleted

/-! ## The start of the handler -/

/-- The worker starts the handler for the event. -/
def Starts (x : ConsumerMove) (worker : Worker) (event : EventId) : Prop :=
  ∃ (i : Nat) (job : Job) (claimedAt : Nat), x.input = .step i .proceed ∧
    x.pre.threads[i]? = some worker ∧ worker.phase = .counting job claimedAt ∧ job.event = event

/-- The handler is not started for an event that the group has handled, while the
    time to live of the claim it was handled under runs. -/
def NotRepeated (bus : Bus) (x : ConsumerMove) : Prop :=
  ∀ worker event, Starts x worker event → ∀ consumer claimedAt,
    .completed worker.group consumer event claimedAt ∈ x.pre.shared.log →
    claimedAt + IdempotencyStore.ttl bus ≤ x.pre.shared.now

/-- Where the handler is started for an event that a worker of the group has handled
    within the time to live, that worker has the same name, and no other group has a
    worker of this name that has claimed the event. -/
def KeepsConsumer (bus : Bus) (x : ConsumerMove) : Prop :=
  ∀ worker event, Starts x worker event → ∀ consumer claimedAt,
    .completed worker.group consumer event claimedAt ∈ x.pre.shared.log →
    x.pre.shared.now < claimedAt + IdempotencyStore.ttl bus →
    consumer = worker.consumer ∧
      OnlyGroup x.pre.shared.log worker.consumer event worker.group

/-- From the start of a worker to the event of the entry it reclaims. -/
def reclaimsFirst (i : Nat) : List ConsumerInput :=
  [.step i .proceed, .step i .proceed, .step i .proceed]

/-- The worker crashes once the handler has returned, and a worker of the group is
    started a minute later. -/
def crashesHandled (again : Worker) : List ConsumerInput :=
  [.environment (.publish (some sampleEnvelope)), .spawn (sampleWorker "billing")] ++
    readsFirst 0 ++ [.step 0 .proceed, .step 0 .proceed, .step 0 .succeed, .step 0 .crash,
      .environment (.tick 60000), .spawn again] ++ reclaimsFirst 1

def Happening.completes (event : EventId) : Happening → Bool
  | .completed _ _ event' _ => event' == event
  | _ => false

/-- No worker is about to start the handler for an event that has been handled. -/
def startsFresh (x : ConsumerMove) : Bool :=
  x.pre.threads.all fun worker =>
    match worker.phase with
    | .counting job _ => x.pre.shared.log.all fun y => !y.completes job.event
    | _ => true

theorem keepsConsumer_of_startsFresh {x : ConsumerMove} (h : startsFresh x = true) :
    KeepsConsumer bus x := by
  rintro worker event ⟨i, job, claimedAt, -, hfound, hphase, rfl⟩ consumer claimedAt' hcompleted -
  have hfresh := List.all_eq_true.mp h worker (List.mem_of_getElem? hfound)
  rw [hphase] at hfresh
  have hnot := List.all_eq_true.mp hfresh _ hcompleted
  simp [Happening.completes] at hnot

/-- A move that starts the handler again for an event handled within the time to live. -/
def repeats (bus : Bus) (x : ConsumerMove) : Bool :=
  match x.input with
  | .step i .proceed =>
      match x.pre.threads[i]? with
      | some worker =>
          match worker.phase with
          | .counting job _ => x.pre.shared.log.any fun
              | .completed group _ event claimedAt => group == worker.group &&
                  event == job.event &&
                  decide (x.pre.shared.now < claimedAt + IdempotencyStore.ttl bus)
              | _ => false
          | _ => false
      | none => false
  | _ => false

theorem not_notRepeated_of_repeats {x : ConsumerMove} (h : repeats bus x = true) :
    ¬ NotRepeated bus x := by
  intro hnot
  unfold repeats at h
  split at h <;> try cases h
  rename_i i hinput
  split at h <;> try cases h
  rename_i worker hfound
  split at h <;> try cases h
  rename_i job claimedAt hphase
  obtain ⟨y, hy, hcheck⟩ := List.any_eq_true.mp h
  cases y with
  | completed group consumer event claimedAt' =>
    simp only [Bool.and_eq_true, beq_iff_eq, decide_eq_true_eq] at hcheck
    obtain ⟨⟨rfl, rfl⟩, hlive⟩ := hcheck
    have hover := hnot worker job.event ⟨i, job, claimedAt, hinput, hfound, hphase, rfl⟩ consumer
      claimedAt' hy
    exact absurd hlive (Nat.not_lt.mpr hover)
  | _ => cases hcheck

end AiPlatform.Events
