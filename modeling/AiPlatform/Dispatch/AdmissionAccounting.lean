/-
  AiPlatform.Dispatch.AdmissionAccounting

  However tasks acquire, release and are cancelled, a counter of the admission
  controller counts the tasks that hold its budget, and a task that failed to
  acquire holds nothing, in the process or in Redis.

  A call to Redis that raises although the server has run it is the exception: the
  member it has put there stays until it expires.
-/

import AiPlatform.Dispatch.AdmissionTasks

namespace AiPlatform.Dispatch

open Transition Redis

variable {controller : Controller} {s s' : Admission} {task task' : AdmissionTask} {happening : Happening}

/-! ## The pool -/

abbrev AdmissionMove := PoolMove Admission AdmissionTask Happening AdmissionEvent

/-- No budget is asked for twice, and no call to Redis of an acquire, or of its roll-back,
    raises while the member of the call is in Redis. -/
def Orderly (controller : Controller) (x : AdmissionMove) : Prop :=
  match x.input with
  | .spawn task => (task.request.enforcedBudgets.map CapacityBudget.key).Nodup
  | .step i .raise => ∀ task ∈ x.pre.threads[i]?, Quiet controller x.pre.shared task
  | _ => True

instance (controller : Controller) (x : AdmissionMove) : Decidable (Orderly controller x) := by
  unfold Orderly
  split <;> infer_instance

/-- The counters count the tasks that hold something, and the members in Redis are those
    of the tasks that account for them. -/
structure PoolOk (controller : Controller) (pool : Pool Admission AdmissionTask) : Prop where
  tasks : ∀ task ∈ pool.threads, TaskOk controller task
  inflight : ∀ key, pool.shared.inflight key = holders AdmissionTask.budgetKeys pool.threads key
  inflight_le : ∀ key, (pool.shared.inflight key : Int) ≤ controller.localLimit key
  tenantInflight : ∀ key,
    pool.shared.tenantInflight key = holders AdmissionTask.tenantKeys pool.threads key
  tenantInflight_le : ∀ key, (pool.shared.tenantInflight key : Int) ≤ controller.tenantLocalLimit key
  queueDepth : ∀ key,
    pool.shared.queueDepth key = holders AdmissionTask.queueKeys pool.threads key
  members : ∀ task ∈ pool.threads, ∀ m ∈ task.drawn, m ∈ pool.shared.members
  apart : ∀ (i j : Nat) (a b : AdmissionTask), pool.threads[i]? = some a → pool.threads[j]? = some b →
    i ≠ j → List.Disjoint a.drawn b.drawn
  known : ∀ m key, pool.shared.Under m key → m ∈ pool.shared.members ∨ m ∈ pool.shared.foreign
  claimed : ∀ task ∈ pool.threads, Claimed controller pool.shared task

section Step

variable {x : AdmissionMove} {pool : Pool Admission AdmissionTask}

theorem poolOk_spawn {request : AcquireRequest} (h : PoolOk controller pool)
    (hfixes : controller.fixes request)
    (hkeys : (request.enforcedBudgets.map CapacityBudget.key).Nodup) :
    PoolOk controller ⟨pool.shared, pool.threads ++ [.new request]⟩ where
  tasks task hmem := by
    rcases List.mem_append.mp hmem with hmem | hmem
    · exact h.tasks task hmem
    · exact List.mem_singleton.mp hmem ▸ taskOk_new hfixes hkeys
  inflight key := (h.inflight key).trans (holders_push rfl key).symm
  inflight_le := h.inflight_le
  tenantInflight key := (h.tenantInflight key).trans (holders_push rfl key).symm
  tenantInflight_le := h.tenantInflight_le
  queueDepth key := (h.queueDepth key).trans (holders_push rfl key).symm
  members task hmem := by
    rcases List.mem_append.mp hmem with hmem | hmem
    · exact h.members task hmem
    · rw [List.mem_singleton.mp hmem]
      nofun
  apart i j a b ha hb hij := by
    rcases Pool.getElem?_push_iff.mp ha with ha | ⟨rfl, rfl⟩
    · rcases Pool.getElem?_push_iff.mp hb with hb | ⟨rfl, rfl⟩
      · exact h.apart i j a b ha hb hij
      · exact List.disjoint_nil_right _
    · exact List.disjoint_nil_left _
  known := h.known
  claimed task hmem := by
    rcases List.mem_append.mp hmem with hmem | hmem
    · exact h.claimed task hmem
    · rw [List.mem_singleton.mp hmem]
      exact fun _ => nofun

theorem poolOk_environment {event : AdmissionEvent} (h : PoolOk controller pool)
    (hstep : pool.shared.environment event = some s') : PoolOk controller ⟨s', pool.threads⟩ := by
  obtain ⟨hinflight, htenant, hqueue, hmembers, hforeign⟩ := same_environment hstep
  refine ⟨h.tasks, ?_, ?_, ?_, ?_, ?_, ?_, h.apart, ?_, ?_⟩
  · rw [hinflight]
    exact h.inflight
  · rw [hinflight]
    exact h.inflight_le
  · rw [htenant]
    exact h.tenantInflight
  · rw [htenant]
    exact h.tenantInflight_le
  · rw [hqueue]
    exact h.queueDepth
  · rw [hmembers]
    exact h.members
  · intro m key hunder
    rw [hmembers]
    rcases under_environment hstep hunder with hold | ⟨-, hnew⟩
    · exact (h.known m key hold).imp_right (hforeign ·)
    · exact .inr hnew
  · intro task hmem hreleased m hm key hunder
    rcases under_environment hstep hunder with hold | ⟨hnot, -⟩
    · exact h.claimed task hmem hreleased m hm key hold
    · exact absurd (h.members task hmem m hm) hnot

theorem poolOk_act {i : Nat} (h : PoolOk controller pool) (hfound : pool.threads[i]? = some task)
    (hact : pool.shared.act controller task happening = some (s', task'))
    (hquiet : happening.raises = true → Quiet controller pool.shared task) :
    PoolOk controller ⟨s', pool.threads.set i task'⟩ := by
  have hmem := List.mem_of_getElem? hfound
  have htask := h.tasks task hmem
  have heffect := Admission.act_effect hact
  have hdraws := draws_effect heffect
  have hcounts := handovers_effect htask heffect
  refine ⟨?_, holders_set hfound h.inflight hcounts.budgets, hcounts.budgets.le h.inflight_le,
    holders_set hfound h.tenantInflight hcounts.tenants, hcounts.tenants.le h.tenantInflight_le,
    holders_set hfound h.queueDepth hcounts.queue, ?_, ?_, ?_, ?_⟩
  · intro other hother
    rcases List.mem_or_eq_of_mem_set hother with hother | rfl
    · exact h.tasks other hother
    · exact taskOk_effect htask heffect
  · intro other hother m hm
    rcases List.mem_or_eq_of_mem_set hother with hother | rfl
    · exact hdraws.members (h.members other hother m hm)
    · rcases hdraws.drawn m hm with hm | ⟨-, hm⟩
      · exact hdraws.members (h.members task hmem m hm)
      · exact hm
  · have hapart : ∀ (j : Nat) (b : AdmissionTask), pool.threads[j]? = some b → i ≠ j →
        List.Disjoint task'.drawn b.drawn := by
      intro j b hb hij m hm hmb
      rcases hdraws.drawn m hm with hm | ⟨hnew, -⟩
      · exact h.apart i j task b hfound hb hij hm hmb
      · exact hnew (h.members b (List.mem_of_getElem? hb) m hmb)
    intro j k a b ha hb hjk
    rcases (Pool.getElem?_set_iff hfound).mp ha with ⟨rfl, rfl⟩ | ⟨hij, ha⟩
    · rcases (Pool.getElem?_set_iff hfound).mp hb with ⟨rfl, -⟩ | ⟨hik, hb⟩
      · exact absurd rfl hjk
      · exact hapart k b hb hik
    · rcases (Pool.getElem?_set_iff hfound).mp hb with ⟨-, rfl⟩ | ⟨-, hb⟩
      · exact fun m hma hmb => hapart j a ha hij hmb hma
      · exact h.apart j k a b ha hb hjk
  · intro m key hunder
    rcases under_effect htask heffect hunder with hold | hm
    · rw [hdraws.foreign]
      exact (h.known m key hold).imp_left (hdraws.members ·)
    · exact .inl (hdraws.members (h.members task hmem m hm))
  · intro other hother
    obtain ⟨j, hj⟩ := List.mem_iff_getElem?.mp hother
    rcases (Pool.getElem?_set_iff hfound).mp hj with ⟨-, rfl⟩ | ⟨hij, hj⟩
    · exact claimed_effect (h.claimed task hmem) h.known hquiet heffect
    · intro hreleased m hm key hunder
      rcases under_effect htask heffect hunder with hold | hdrawn
      · exact h.claimed other (List.mem_of_getElem? hj) hreleased m hm key hold
      · exact absurd hm (h.apart i j task other hfound hj hij hdrawn)

theorem poolOk_step (hx : (admission controller).machine.Makes x) (horderly : Orderly controller x)
    (h : PoolOk controller x.pre) : PoolOk controller x.post := by
  unfold Orderly at horderly
  rcases Pool.makes_cases hx with ⟨new, hinput, hadmits, hpost⟩ | ⟨i, choice, old, next, hacts⟩ |
    ⟨event, -, hstep, hthreads⟩
  · obtain ⟨hnew, hfixes⟩ := Bool.and_eq_true_iff.mp hadmits
    rw [hinput] at horderly
    rw [hpost, of_decide_eq_true hnew]
    exact poolOk_spawn h (of_decide_eq_true hfixes) horderly
  · rw [hacts.input] at horderly
    have hquiet : choice.raises = true → Quiet controller x.pre.shared old := by
      intro hraises
      cases choice with
      | raise => exact horderly old hacts.found
      | _ => cases hraises
    have hok := poolOk_act h hacts.found hacts.act hquiet
    rwa [← hacts.threads] at hok
  · have hok := poolOk_environment h hstep
    rwa [← hthreads] at hok

/-! ## Releases -/

/-- The move calls `release` on the lease of this task. -/
def releases (i : Nat) (x : AdmissionMove) : Bool :=
  match x.input with
  | .step j .release => j == i
  | _ => false

/-- Not a call of `release` on a lease that is being released or has been. -/
def effective (x : AdmissionMove) : Bool :=
  match x.input with
  | .step i .release => x.pre.threads[i]?.any fun task => decide (task.place = .live)
  | _ => true

/-- The lease of this task has not been released. -/
def unreleased (i : Nat) (pool : Pool Admission AdmissionTask) : Bool :=
  !pool.threads[i]?.any fun task => task.place.released

/-- A task calls `release` when its lease is live, or nothing happens. -/
theorem act_release (hact : s.act controller task .release = some (s', task')) :
    task.place = .live ∧ task'.place.released = true ∨ s' = s ∧ task' = task ∧ task.place ≠ .live := by
  obtain ⟨request, held, drawn, place⟩ := task
  cases place with
  | live =>
    cases hact
    exact .inl ⟨rfl, rfl⟩
  | cleaning failed =>
    cases failed <;> cases hact
    exact .inr ⟨rfl, rfl, nofun⟩
  | ended failed =>
    cases failed <;> cases hact
    exact .inr ⟨rfl, rfl, nofun⟩
  | _ => cases hact

theorem effective_step (hx : (admission controller).machine.Makes x) (h : effective x = false) :
    x.post = x.pre := by
  unfold effective at h
  rcases Pool.makes_cases hx with ⟨new, hinput, -, -⟩ | ⟨i, choice, old, next, hacts⟩ |
    ⟨event, hinput, -, -⟩
  · rw [hinput] at h
    cases h
  · rw [hacts.input] at h
    cases choice with
    | release =>
      simp only [hacts.found, Option.any_some, decide_eq_false_iff_not] at h
      rcases @act_release controller _ _ _ _ hacts.act with ⟨hlive, -⟩ | ⟨hshared, rfl, -⟩
      · exact absurd hlive h
      · exact hacts.idle hshared
    | _ => cases h
  · rw [hinput] at h
    cases h

/-- A lease that is released stays so, whatever move is made. -/
theorem released_step {i : Nat} (hx : (admission controller).machine.Makes x)
    (hfound : x.pre.threads[i]? = some task) (hreleased : task.place.released = true) :
    ∃ task', x.post.threads[i]? = some task' ∧ task'.place.released = true := by
  rcases Pool.makes_cases hx with ⟨new, -, -, hpost⟩ | ⟨j, choice, old, next, hacts⟩ |
    ⟨event, -, -, hthreads⟩
  · rw [hpost]
    exact ⟨task, Pool.getElem?_push_iff.mpr (.inl hfound), hreleased⟩
  · rw [hacts.threads]
    by_cases hij : j = i
    · subst hij
      cases hacts.found.symm.trans hfound
      refine ⟨next, (Pool.getElem?_set_iff hacts.found).mpr (.inl ⟨rfl, rfl⟩), ?_⟩
      exact released_effect (Admission.act_effect hacts.act) hreleased
    · exact ⟨task, (Pool.getElem?_set_iff hacts.found).mpr (.inr ⟨hij, hfound⟩), hreleased⟩
  · rw [hthreads]
    exact ⟨task, hfound, hreleased⟩

theorem unreleased_eq_false {i : Nat} {pool : Pool Admission AdmissionTask} :
    unreleased i pool = false ↔ ∃ task, pool.threads[i]? = some task ∧ task.place.released = true := by
  simp [unreleased, Option.any_eq_true]

theorem unreleased_step {i : Nat} (hx : (admission controller).machine.Makes x)
    (h : unreleased i x.post = true) : unreleased i x.pre = true := by
  cases hpre : unreleased i x.pre with
  | true => rfl
  | false =>
    obtain ⟨task, hfound, hreleased⟩ := unreleased_eq_false.mp hpre
    have hpost := unreleased_eq_false.mpr (released_step hx hfound hreleased)
    exact absurd h (by rw [hpost]; decide)

/-- The first call of `release` on a lease is the last that does something. -/
theorem releases_step {i : Nat} (hx : (admission controller).machine.Makes x)
    (h : (releases i x && effective x) = true) :
    unreleased i x.pre = true ∧ unreleased i x.post = false := by
  obtain ⟨hreleases, heffective⟩ := Bool.and_eq_true_iff.mp h
  unfold releases at hreleases
  unfold effective at heffective
  rcases Pool.makes_cases hx with ⟨new, hinput, -, -⟩ | ⟨j, choice, old, next, hacts⟩ |
    ⟨event, hinput, -, -⟩
  · rw [hinput] at hreleases
    cases hreleases
  · rw [hacts.input] at hreleases heffective
    cases choice with
    | release =>
      obtain rfl : j = i := beq_iff_eq.mp hreleases
      simp only [hacts.found, Option.any_some, decide_eq_true_eq] at heffective
      rcases @act_release controller _ _ _ _ hacts.act with ⟨-, hnext⟩ | ⟨-, -, hnot⟩
      · refine ⟨?_, unreleased_eq_false.mpr ⟨next, ?_, hnext⟩⟩
        · rw [unreleased, hacts.found, Option.any_some, heffective]
          rfl
        · rw [hacts.threads]
          exact (Pool.getElem?_set_iff hacts.found).mpr (.inl ⟨rfl, rfl⟩)
      · exact absurd heffective hnot
    | _ => cases hreleases
  · rw [hinput] at hreleases
    cases hreleases

end Step

/-! ## Every run -/

section Runs

variable {tr : List AdmissionMove} {pool : Pool Admission AdmissionTask}

def Admission.initial (now : Nat) : Admission where
  inflight _ := 0
  queueDepth _ := 0
  tenantInflight _ := 0
  db := .empty
  now := now
  members := []
  foreign := []

theorem poolOk_initial {now : Nat} : PoolOk controller ⟨.initial now, []⟩ where
  tasks := nofun
  inflight _ := rfl
  inflight_le _ := Int.le_trans (Int.zero_le_ofNat 1) (le_max_right _ _)
  tenantInflight _ := rfl
  tenantInflight_le _ := Int.le_trans (Int.zero_le_ofNat 1) (le_max_right _ _)
  queueDepth _ := rfl
  members := nofun
  apart _ _ _ _ := nofun
  known := nofun
  claimed := nofun

theorem poolOk_run {now : Nat} (h : Run (admission controller).machine ⟨.initial now, []⟩ tr pool)
    (horderly : ∀ x ∈ tr, Orderly controller x) : PoolOk controller pool :=
  (h.invariant_when (P := PoolOk controller) (fun _ => poolOk_step) horderly poolOk_initial).2

/-- No task is acquiring or releasing a lease. -/
def AtRest (pool : Pool Admission AdmissionTask) : Prop :=
  ∀ task ∈ pool.threads, task.place = .live ∨ ∃ failed, task.place = .ended failed

instance (pool : Pool Admission AdmissionTask) : Decidable (AtRest pool) :=
  inferInstanceAs (Decidable (∀ _ ∈ _, _ ∨ ∃ _ : Bool, _))

/-- How many live leases hold the key. -/
def liveHolders (held : AdmissionTask → List String) (threads : List AdmissionTask) (key : String) : Nat :=
  threads.countP fun task => decide (task.place = .live) && decide (key ∈ held task)

/-- At rest, whoever holds something is live. -/
theorem holders_atRest {held : AdmissionTask → List String} (hrest : AtRest pool)
    (hended : ∀ task ∈ pool.threads, ∀ failed, task.place = .ended failed → held task = []) (key : String) :
    holders held pool.threads key = liveHolders held pool.threads key := by
  refine List.countP_congr fun task hmem => ?_
  rcases hrest task hmem with hlive | ⟨failed, hplace⟩
  · simp [hlive]
  · simp [hended task hmem failed hplace]

/-- A task that failed has no member in Redis. -/
theorem not_under_failed (h : PoolOk controller pool) (hmem : task ∈ pool.threads)
    (hplace : task.place = .ended true) {m key : String} (hm : m ∈ task.drawn) :
    ¬ pool.shared.Under m key := by
  intro hunder
  obtain ⟨pair, hpair, -⟩ := h.claimed task hmem (by rw [hplace]; rfl) m hm key hunder
  have hheld := (h.tasks task hmem).ended true hplace
  rw [AdmissionTask.claims, AdmissionTask.pending, hplace, hheld] at hpair
  cases hpair

/-- Over every orderly run: a counter of a budget or of a tenant share is the number of
    tasks that hold it and within its limit, and at rest the number of live leases that
    do; a live lease holds every budget that was asked for, a task that has ended holds
    nothing and waits in no queue; one that failed has no member left in Redis; and the
    run without repeated releases ends the same, with each lease released at most once. -/
theorem admission_accounting {now : Nat}
    (h : Run (admission controller).machine ⟨.initial now, []⟩ tr pool)
    (horderly : ∀ x ∈ tr, Orderly controller x) :
    (∀ key, pool.shared.inflight key = holders AdmissionTask.budgetKeys pool.threads key ∧
      (pool.shared.inflight key : Int) ≤ controller.localLimit key) ∧
    (∀ key, pool.shared.tenantInflight key = holders AdmissionTask.tenantKeys pool.threads key ∧
      (pool.shared.tenantInflight key : Int) ≤ controller.tenantLocalLimit key) ∧
    (∀ key, pool.shared.queueDepth key = holders AdmissionTask.queueKeys pool.threads key) ∧
    (AtRest pool → ∀ key,
      pool.shared.inflight key = liveHolders AdmissionTask.budgetKeys pool.threads key ∧
      pool.shared.tenantInflight key = liveHolders AdmissionTask.tenantKeys pool.threads key ∧
      pool.shared.queueDepth key = 0) ∧
    (∀ task ∈ pool.threads, task.place = .live →
      task.held.budgets.reverse = task.request.enforcedBudgets) ∧
    (∀ task ∈ pool.threads, ∀ failed, task.place = .ended failed → task.held = ⟨[], [], []⟩) ∧
    (∀ task ∈ pool.threads, task.place = .ended true →
      ∀ m ∈ task.drawn, ∀ key, ¬ pool.shared.Under m key) ∧
    Run (admission controller).machine ⟨.initial now, []⟩ (tr.filter effective) pool ∧
    ∀ i, (tr.filter effective).countP (releases i) ≤ 1 := by
  have hok := poolOk_run h horderly
  have hended : ∀ task ∈ pool.threads, ∀ failed, task.place = .ended failed → task.held = ⟨[], [], []⟩ :=
    fun task hmem => (hok.tasks task hmem).ended
  refine ⟨fun key => ⟨hok.inflight key, hok.inflight_le key⟩,
    fun key => ⟨hok.tenantInflight key, hok.tenantInflight_le key⟩, hok.queueDepth, ?_,
    fun task hmem => (hok.tasks task hmem).held_live, hended,
    fun task hmem hplace m hm key => not_under_failed hok hmem hplace hm,
    h.filter fun x hx => effective_step hx, ?_⟩
  · intro hrest key
    refine ⟨(hok.inflight key).trans (holders_atRest hrest ?_ key),
      (hok.tenantInflight key).trans (holders_atRest hrest ?_ key), ?_⟩
    · intro task hmem failed hplace
      rw [AdmissionTask.budgetKeys, hended task hmem failed hplace]
      rfl
    · intro task hmem failed hplace
      rw [AdmissionTask.tenantKeys, hended task hmem failed hplace]
    · rw [hok.queueDepth key]
      refine List.countP_eq_zero.mpr fun task hmem => ?_
      rcases hrest task hmem with hlive | ⟨failed, hplace⟩
      · simp [AdmissionTask.queueKeys, hlive]
      · simp [AdmissionTask.queueKeys, hplace]
  · intro i
    rw [List.countP_filter]
    exact h.countP_le_one (fun x => releases_step) fun x => unreleased_step

/-- One lease is live, in Redis too, and an acquire beside it is rejected. -/
theorem admission_accounting_rejected :
    let controller : Controller := ⟨"epoch", ⟨1000, by decide⟩, true, false, fun _ => none, id,
      fun _ => 1, fun _ => 1⟩
    let task : AdmissionTask := .new ⟨[⟨"run", 1, 0, true, true⟩, ⟨"job", 1, 0, true, false⟩], "acme", false⟩
    ∃ tr pool, Run (admission controller).machine ⟨.initial 0, []⟩ tr pool ∧
      tr.map Move.input = [.spawn task, .step 0 .proceed, .step 0 .proceed, .step 0 (.draw "a"), .step 0 .run,
        .step 0 .answer, .step 0 .proceed, .step 0 .proceed, .step 0 .proceed, .step 0 .proceed,
        .spawn task, .step 1 .proceed, .step 1 .proceed, .step 1 .proceed] ∧
      pool.threads.map AdmissionTask.place = [.live, .ended true] ∧
      (pool.shared.inflight "run" = liveHolders AdmissionTask.budgetKeys pool.threads "run" ∧
        pool.shared.tenantInflight "run" = liveHolders AdmissionTask.tenantKeys pool.threads "run" ∧
        pool.shared.queueDepth "run" = 0) := by
  intro controller task
  obtain ⟨tr, pool, hrun, hinputs, hcheck⟩ := (admission controller).machine.exists_run ⟨.initial 0, []⟩
    [.spawn task, .step 0 .proceed, .step 0 .proceed, .step 0 (.draw "a"), .step 0 .run,
      .step 0 .answer, .step 0 .proceed, .step 0 .proceed, .step 0 .proceed, .step 0 .proceed,
      .spawn task, .step 1 .proceed, .step 1 .proceed, .step 1 .proceed]
    (fun tr pool => (∀ x ∈ tr, Orderly controller x) ∧
      pool.threads.map AdmissionTask.place = [.live, .ended true] ∧ AtRest pool) (by decide +kernel)
  obtain ⟨horderly, hplaces, hrest⟩ := of_decide_eq_true hcheck
  exact ⟨tr, pool, hrun, hinputs, hplaces, (admission_accounting hrun horderly).2.2.2.1 hrest "run"⟩

/-- The server runs the script and the connection is lost: the acquire is rejected as
    degraded, and its member stays under the key. -/
theorem lost_answer_keeps_member :
    let controller : Controller := ⟨"epoch", ⟨1000, by decide⟩, true, false, fun _ => none, id,
      fun _ => 1, fun _ => 1⟩
    let task : AdmissionTask := .new ⟨[⟨"run", 1, 0, true, true⟩], "acme", false⟩
    ∃ tr pool, Run (admission controller).machine ⟨.initial 0, []⟩ tr pool ∧
      tr.map Move.input = [.spawn task, .step 0 .proceed, .step 0 .proceed, .step 0 (.draw "a"), .step 0 .run,
        .step 0 .raise, .step 0 .proceed, .step 0 .proceed] ∧
      pool.threads.map AdmissionTask.place = [.ended true] ∧
      ¬ ∀ task ∈ pool.threads, task.place = .ended true →
        ∀ m ∈ task.drawn, ∀ key, ¬ pool.shared.Under m key := by
  intro controller task
  obtain ⟨tr, pool, hrun, hinputs, hcheck⟩ := (admission controller).machine.exists_run ⟨.initial 0, []⟩
    [.spawn task, .step 0 .proceed, .step 0 .proceed, .step 0 (.draw "a"), .step 0 .run,
      .step 0 .raise, .step 0 .proceed, .step 0 .proceed]
    (fun _ pool => pool.threads.map AdmissionTask.place = [.ended true] ∧
      ¬ ∀ task ∈ pool.threads, task.place = .ended true →
        ∀ m ∈ task.drawn, ∀ key ∈ [redisKey "epoch" "run"], ¬ pool.shared.Under m key) (by decide +kernel)
  obtain ⟨hplaces, hunder⟩ := of_decide_eq_true hcheck
  exact ⟨tr, pool, hrun, hinputs, hplaces,
    fun hall => hunder fun task hmem hplace m hm key _ => hall task hmem hplace m hm key⟩

end Runs

end AiPlatform.Dispatch
