/-
  AiPlatform.Dispatch.AdmissionTasks

  What a step keeps of one task of the admission controller: it holds and has yet to
  take what its request asks for, the counters go with what it holds, and a member
  it has put into Redis is there for a pair it accounts for.
-/

import AiPlatform.Dispatch.AdmissionSteps

namespace AiPlatform.Dispatch

open Transition Redis

variable {controller : Controller} {s s' : Admission} {task task' : AdmissionTask} {happening : Happening}

/-! ## One task -/

/-- What a task holds and has yet to take is what its request asks for, once. -/
structure TaskOk (controller : Controller) (task : AdmissionTask) : Prop where
  fixes : controller.fixes task.request
  keys : (task.request.enforcedBudgets.map CapacityBudget.key).Nodup
  budgets : ∃ rest, task.held.budgets.reverse ++ rest = task.request.enforcedBudgets ∧
    ∀ todo ∈ task.place.ahead task.request.enforcedBudgets, rest = todo
  tenants : (task.held.tenants ++ (task.place.tenantAhead task.request.enforcedBudgets).map
    fun budget => tenantLocalKey task.request.tenantId budget.key).Nodup
  enforced : ∀ budget ∈ task.place.tenantAhead task.request.enforcedBudgets,
    budget ∈ task.request.enforcedBudgets
  member : ∀ m ∈ task.place.member, m ∈ task.drawn
  ended : ∀ failed, task.place = .ended failed → task.held = ⟨[], [], []⟩

theorem tenantLocalKey_inj {tenantId key key' : String}
    (h : tenantLocalKey tenantId key = tenantLocalKey tenantId key') : key = key' := by
  unfold tenantLocalKey at h
  have htail := congrArg String.toList h
  exact String.toList_inj.mp (by simpa using htail)

theorem nodup_tenantLocalKey {tenantId : String} {budgets : List CapacityBudget}
    (h : (budgets.map CapacityBudget.key).Nodup) :
    (budgets.map fun budget => tenantLocalKey tenantId budget.key).Nodup := by
  have hmap : (budgets.map fun budget => tenantLocalKey tenantId budget.key) =
      (budgets.map CapacityBudget.key).map (tenantLocalKey tenantId) := by
    rw [List.map_map]
    rfl
  rw [hmap]
  exact h.map fun _ _ => tenantLocalKey_inj

theorem taskOk_new {request : AcquireRequest} (hfixes : controller.fixes request)
    (hkeys : (request.enforcedBudgets.map CapacityBudget.key).Nodup) :
    TaskOk controller (.new request) where
  fixes := hfixes
  keys := hkeys
  budgets := ⟨request.enforcedBudgets, rfl, fun _ htodo => Option.some.inj htodo⟩
  tenants := nodup_tenantLocalKey hkeys
  enforced _ hmem := hmem
  member := nofun
  ended := nofun

namespace TaskOk

variable {budget : CapacityBudget} {budgets todo : List CapacityBudget}

/-- The budget at hand is not held yet. -/
theorem not_holds (h : TaskOk controller task)
    (hahead : task.place.ahead task.request.enforcedBudgets = some (budget :: todo)) :
    budget.key ∉ task.budgetKeys := by
  obtain ⟨rest, heq, hrest⟩ := h.budgets
  have hkeys := h.keys
  rw [← heq, hrest _ hahead, List.map_append, List.map_cons] at hkeys
  have hnot := List.disjoint_of_nodup_append hkeys
  intro hmem
  exact hnot (by simpa [AdmissionTask.budgetKeys] using hmem) (List.mem_cons_self ..)

/-- The budget at hand is one of the request. -/
theorem mem_enforced (h : TaskOk controller task)
    (hahead : task.place.ahead task.request.enforcedBudgets = some (budget :: todo)) :
    budget ∈ task.request.enforcedBudgets := by
  obtain ⟨rest, heq, hrest⟩ := h.budgets
  rw [← heq, hrest _ hahead]
  simp

/-- A budget is held once. -/
theorem nodup_held (h : TaskOk controller task) : task.budgetKeys.Nodup := by
  obtain ⟨rest, heq, -⟩ := h.budgets
  have hkeys := h.keys
  rw [← heq, List.map_append] at hkeys
  have hnodup := hkeys.of_append_left
  rwa [List.map_reverse, List.nodup_reverse] at hnodup

/-- The share at hand is not held yet. -/
theorem not_holds_tenant (h : TaskOk controller task) (hplace : task.place = .tenantLocal budget todo) :
    tenantLocalKey task.request.tenantId budget.key ∉ task.tenantKeys := by
  have htenants := h.tenants
  rw [hplace] at htenants
  exact fun hmem => List.disjoint_of_nodup_append htenants hmem (List.mem_cons_self ..)

/-- A lease that is live holds what was asked for. -/
theorem held_live (h : TaskOk controller task) (hplace : task.place = .live) :
    task.held.budgets.reverse = task.request.enforcedBudgets := by
  obtain ⟨rest, heq, hrest⟩ := h.budgets
  rw [hplace] at hrest
  rw [← heq, hrest [] rfl, List.append_nil]

/-- A task that goes to another place takes nothing. -/
theorem moves {raises : Bool} (h : TaskOk controller task) (hmoves : Moves controller task task' raises) :
    TaskOk controller task' := by
  obtain ⟨rest, heq, hrest⟩ := h.budgets
  have hrequest := hmoves.request
  have hheld := hmoves.held
  have hdrawn := hmoves.drawn
  refine ⟨by rw [hrequest]; exact h.fixes, by rw [hrequest]; exact h.keys, ⟨rest, ?_, ?_⟩, ?_, ?_, ?_, ?_⟩
  · rw [hheld, hrequest]
    exact heq
  · rw [hrequest]
    rcases hmoves.ahead with hnone | hsame
    · rw [hnone]
      nofun
    · rw [hsame]
      exact hrest
  · rw [hheld, hrequest]
    exact h.tenants.sublist ((hmoves.tenantAhead.map _).append_left _)
  · rw [hrequest]
    exact fun budget hmem => h.enforced budget (hmoves.tenantAhead.subset hmem)
  · rw [hdrawn]
    exact fun m hmem => h.member m (hmoves.member m hmem)
  · rw [hheld]
    exact fun failed hplace => h.ended failed (hmoves.ended failed hplace)

/-- The budget at hand is now held. -/
theorem takes (h : TaskOk controller task)
    (hahead : task.place.ahead task.request.enforcedBudgets = some (budget :: todo))
    (htenant : task.place.tenantAhead task.request.enforcedBudgets = budget :: todo) :
    TaskOk controller { task with
      held := { task.held with budgets := budget :: task.held.budgets }
      place := .sharing budget todo } := by
  obtain ⟨rest, heq, hrest⟩ := h.budgets
  refine ⟨h.fixes, h.keys, ⟨todo, ?_, fun _ htodo => Option.some.inj htodo⟩, ?_, ?_, nofun, nofun⟩
  · rw [← heq, hrest _ hahead]
    simp
  · have htenants := h.tenants
    rwa [htenant] at htenants
  · exact fun other hmem => h.enforced other (htenant ▸ hmem)

/-- The tenant share at hand is now held. -/
theorem takesTenant (h : TaskOk controller task) (hplace : task.place = .tenantLocal budget todo) :
    TaskOk controller { task with
      held := { task.held with
        tenants := tenantLocalKey task.request.tenantId budget.key :: task.held.tenants }
      place := .entering todo } := by
  have hbudgets := h.budgets
  have htenants := h.tenants
  have henforced := h.enforced
  rw [hplace] at hbudgets htenants henforced
  exact ⟨h.fixes, h.keys, hbudgets, List.nodup_middle.mp htenants,
    fun other hmem => henforced other (List.mem_cons_of_mem _ hmem), nofun, nofun⟩

/-- A member is made for the lease. -/
theorem draws {m : String} (h : TaskOk controller task) (hplace : task.place = .sharing budget todo) :
    TaskOk controller { task with
      drawn := m :: task.drawn, place := .evaluating budget todo m none false } := by
  have hbudgets := h.budgets
  have htenants := h.tenants
  have henforced := h.enforced
  rw [hplace] at hbudgets htenants henforced
  exact ⟨h.fixes, h.keys, hbudgets, htenants, henforced,
    fun m' hmem => Option.some.inj hmem ▸ List.mem_cons_self .., nofun⟩

/-- The pair at hand is now held: the share of the tenant is in it. -/
theorem pairs {m : String} {counts : Int × Int} (pair : LeaseKeys × String) (h : TaskOk controller task)
    (hplace : task.place = .evaluating budget todo m (some counts) false) :
    TaskOk controller { task with
      held := { task.held with pairs := pair :: task.held.pairs }, place := .entering todo } := by
  have hbudgets := h.budgets
  have htenants := h.tenants
  have henforced := h.enforced
  rw [hplace] at hbudgets htenants henforced
  refine ⟨h.fixes, h.keys, hbudgets, htenants.sublist ?_,
    fun other hmem => henforced other (List.mem_cons_of_mem _ hmem), nofun, nofun⟩
  exact ((List.sublist_cons_self budget todo).map _).append_left _

/-- A budget, a share or a pair is given back. -/
theorem gives {failed : Bool} {held : Holding} (h : TaskOk controller task)
    (hplace : task.place = .cleaning failed) (hbudgets : List.IsSuffix held.budgets task.held.budgets)
    (htenants : List.Sublist held.tenants task.held.tenants) :
    TaskOk controller { task with held := held } := by
  obtain ⟨rest, heq, -⟩ := h.budgets
  obtain ⟨given, hgiven⟩ := hbudgets
  refine ⟨h.fixes, h.keys, ⟨given.reverse ++ rest, ?_, ?_⟩, ?_, h.enforced, h.member, ?_⟩
  · rw [← List.append_assoc, ← List.reverse_append, hgiven]
    exact heq
  · rw [hplace]
    nofun
  · exact h.tenants.sublist (htenants.append_right _)
  · rw [hplace]
    nofun

end TaskOk

theorem taskOk_effect {raises : Bool} (h : TaskOk controller task)
    (heffect : AdmissionEffect controller s task raises s' task') : TaskOk controller task' := by
  cases heffect with
  | moves hshared hqueue hplace => exact h.moves hplace
  | takes budget todo hahead htenant hpending hplace hroom hqueue hshared hheld =>
    rw [hheld]
    exact h.takes hahead htenant
  | takesTenant budget todo hplace hroom hshared hheld =>
    rw [hheld]
    exact h.takesTenant hplace
  | draws budget todo m hplace hfresh hshared hheld =>
    rw [hheld]
    exact h.draws hplace
  | runs budget todo m cancelled hplace hshared hheld =>
    rw [hheld]
    have hbudgets := h.budgets
    have htenants := h.tenants
    have henforced := h.enforced
    have hmember := h.member
    rw [hplace] at hbudgets htenants henforced hmember
    exact ⟨h.fixes, h.keys, hbudgets, htenants, henforced, hmember, nofun⟩
  | pairs budget todo m counts hplace hshared hheld =>
    rw [hheld]
    exact h.pairs _ hplace
  | unpairs budget todo m reason hplace hshared hheld =>
    rw [hheld]
    exact h.moves (moves_unpaired hplace)
  | givesTenant failed key tenants hplace hholds hshared hheld =>
    rw [hheld]
    exact h.gives hplace List.suffix_rfl (hholds ▸ List.sublist_cons_self ..)
  | givesPair failed keys m pairs hplace hholds hshared hheld =>
    rw [hheld]
    exact h.gives hplace List.suffix_rfl (List.Sublist.refl _)
  | givesBudget failed budget budgets hplace hholds hshared hheld =>
    rw [hheld]
    exact h.gives hplace (hholds ▸ List.suffix_cons ..) (List.Sublist.refl _)
  | ends failed hplace hshared hempty hheld =>
    rw [hheld]
    obtain ⟨rest, heq, -⟩ := h.budgets
    refine ⟨h.fixes, h.keys, ⟨rest, heq, nofun⟩, ?_, nofun, nofun, fun _ _ => hempty⟩
    have htenants := h.tenants
    rwa [hplace] at htenants

/-! ## The counters under a step -/

/-- The limit of a budget in the process: a limit below one counts as one. -/
def Controller.localLimit (controller : Controller) (key : String) : Int := max (controller.limits key) 1

def Controller.tenantLocalLimit (controller : Controller) (key : String) : Int :=
  max (controller.tenantLimits key) 1

/-- What a step does to the counters and to what its task holds. -/
structure Handovers (controller : Controller) (s : Admission) (task : AdmissionTask) (s' : Admission)
    (task' : AdmissionTask) : Prop where
  budgets : Handover controller.localLimit s.inflight task.budgetKeys s'.inflight task'.budgetKeys
  tenants : Handover controller.tenantLocalLimit s.tenantInflight task.tenantKeys s'.tenantInflight
    task'.tenantKeys
  queue : QueueStep s task s' task'

theorem queueKeys_cleaning {failed : Bool} (hplace : task.place = .cleaning failed) : task.queueKeys = [] := by
  rw [AdmissionTask.queueKeys, hplace]

theorem handovers_effect {raises : Bool} (h : TaskOk controller task)
    (heffect : AdmissionEffect controller s task raises s' task') : Handovers controller s task s' task' := by
  cases heffect with
  | moves hshared hqueue hplace =>
    refine ⟨.keeps hshared.inflight ?_, .keeps hshared.tenantInflight ?_, hqueue⟩
    · rw [AdmissionTask.budgetKeys, hplace.held]
      rfl
    · exact congrArg Holding.tenants hplace.held
  | takes budget todo hahead htenant hpending hplace hroom hqueue hshared hheld =>
    obtain ⟨queueDepth, hshared⟩ := hshared
    refine ⟨?_, ?_, hqueue⟩
    · rw [hshared, hheld]
      refine .takes budget.key (h.not_holds hahead) ?_ rfl rfl
      rw [Controller.localLimit, ← (h.fixes budget (h.mem_enforced hahead)).1]
      exact hroom
    · rw [hshared, hheld]
      exact .keeps rfl rfl
  | takesTenant budget todo hplace hroom hshared hheld =>
    have henforced := h.enforced
    rw [hplace] at henforced
    have hlimit := (h.fixes budget (henforced budget (List.mem_cons_self ..))).2
    have hqueue : task.queueKeys = [] := by rw [AdmissionTask.queueKeys, hplace]
    rw [hshared, hheld]
    refine ⟨.keeps rfl rfl, .takes _ (h.not_holds_tenant hplace) ?_ rfl rfl, .keeps rfl hqueue.symm⟩
    rw [Controller.tenantLocalLimit, ← hlimit]
    exact lt_max_of_lt_left hroom
  | draws budget todo m hplace hfresh hshared hheld =>
    have hqueue : task.queueKeys = [] := by rw [AdmissionTask.queueKeys, hplace]
    rw [hshared, hheld]
    exact ⟨.keeps rfl rfl, .keeps rfl rfl, .keeps rfl hqueue.symm⟩
  | runs budget todo m cancelled hplace hshared hheld =>
    have hqueue : task.queueKeys = [] := by rw [AdmissionTask.queueKeys, hplace]
    rw [hshared, hheld]
    exact ⟨.keeps rfl rfl, .keeps rfl rfl, .keeps rfl hqueue.symm⟩
  | pairs budget todo m counts hplace hshared hheld =>
    have hqueue : task.queueKeys = [] := by rw [AdmissionTask.queueKeys, hplace]
    rw [hshared, hheld]
    exact ⟨.keeps rfl rfl, .keeps rfl rfl, .keeps rfl hqueue.symm⟩
  | unpairs budget todo m reason hplace hshared hheld =>
    have hqueue : task.queueKeys = [] := by rw [AdmissionTask.queueKeys, hplace]
    have hkeeps := (moves_unpaired hplace : Moves controller _ _ _).held
    rw [hshared, hheld]
    refine ⟨.keeps rfl ?_, .keeps rfl ?_, .keeps rfl (queueKeys_unpaired.trans hqueue.symm)⟩
    · rw [AdmissionTask.budgetKeys, hkeeps]
      rfl
    · exact congrArg Holding.tenants hkeeps
  | givesTenant failed key tenants hplace hholds hshared hheld =>
    have htenants := h.tenants.of_append_left
    rw [hholds] at htenants
    rw [hshared, hheld]
    exact ⟨.keeps rfl rfl, .gives key (List.nodup_cons.mp htenants).1 rfl hholds, .keeps rfl rfl⟩
  | givesPair failed keys m pairs hplace hholds hshared hheld =>
    rw [hheld]
    rcases hshared with hshared | ⟨hshared, -⟩
    · rw [hshared]
      exact ⟨.keeps rfl rfl, .keeps rfl rfl, .keeps rfl rfl⟩
    · rw [hshared]
      exact ⟨.keeps rfl rfl, .keeps rfl rfl, .keeps rfl rfl⟩
  | givesBudget failed budget budgets hplace hholds hshared hheld =>
    have hkeys : task.budgetKeys = budget.key :: budgets.map CapacityBudget.key := by
      rw [AdmissionTask.budgetKeys, hholds, List.map_cons]
    have hnodup := h.nodup_held
    rw [hkeys] at hnodup
    rw [hshared, hheld]
    exact ⟨.gives budget.key (List.nodup_cons.mp hnodup).1 rfl hkeys, .keeps rfl rfl, .keeps rfl rfl⟩
  | ends failed hplace hshared hempty hheld =>
    rw [hshared, hheld]
    exact ⟨.keeps rfl rfl, .keeps rfl rfl, .keeps rfl (queueKeys_cleaning hplace).symm⟩

/-! ## The members of a task under a step -/

/-- A member of a task that is under a key is there for a pair the task accounts for,
    until its lease is released. -/
def Claimed (controller : Controller) (s : Admission) (task : AdmissionTask) : Prop :=
  task.place.released = false → ∀ m ∈ task.drawn, ∀ key, s.Under m key →
    ∃ pair ∈ task.claims controller, pair.2 = m ∧ pair.1.holds key

theorem under_congr (hdb : s'.db = s.db) (hnow : s'.now = s.now) {m key : String} (h : s'.Under m key) :
    s.Under m key := by
  unfold Admission.Under at h
  rw [hdb, hnow] at h
  exact h

/-- A step puts no member under a key but one its task has drawn. -/
theorem under_effect {raises : Bool} (h : TaskOk controller task)
    (heffect : AdmissionEffect controller s task raises s' task') {m key : String}
    (hunder : s'.Under m key) : s.Under m key ∨ m ∈ task.drawn := by
  cases heffect with
  | moves hshared hqueue hplace => exact .inl (under_congr hshared.db hshared.now hunder)
  | takes budget todo hahead htenant hpending hplace hroom hqueue hshared hheld =>
    obtain ⟨queueDepth, rfl⟩ := hshared
    exact .inl hunder
  | runs budget todo member cancelled hplace hshared hheld =>
    rw [hshared] at hunder
    rcases under_runAcquire hunder with hold | ⟨rfl, -⟩
    · exact .inl hold
    · exact .inr (h.member m (by rw [hplace]; rfl))
  | unpairs budget todo member reason hplace hshared hheld =>
    rw [hshared] at hunder
    exact .inl (under_runRelease hunder).1
  | givesPair failed keys member pairs hplace hholds hshared hheld =>
    rcases hshared with hshared | ⟨hshared, -⟩
    · rw [hshared] at hunder
      exact .inl (under_runRelease hunder).1
    · exact .inl (hshared ▸ hunder)
  | takesTenant budget todo hplace hroom hshared hheld =>
    rw [hshared] at hunder
    exact .inl hunder
  | draws budget todo member hplace hfresh hshared hheld =>
    rw [hshared] at hunder
    exact .inl hunder
  | pairs budget todo member counts hplace hshared hheld =>
    rw [hshared] at hunder
    exact .inl hunder
  | givesTenant failed key tenants hplace hholds hshared hheld =>
    rw [hshared] at hunder
    exact .inl hunder
  | givesBudget failed budget budgets hplace hholds hshared hheld =>
    rw [hshared] at hunder
    exact .inl hunder
  | ends failed hplace hshared hempty hheld =>
    rw [hshared] at hunder
    exact .inl hunder

namespace Claimed

/-- The pairs are those it holds, and Redis has no more than before. -/
theorem of_pairs (h : Claimed controller s task) (hreleased : task'.place.released = false →
      task.place.released = false)
    (hpending : task.pending controller = []) (hdrawn : task'.drawn = task.drawn)
    (hpairs : task'.held.pairs = task.held.pairs)
    (hunder : ∀ m key, s'.Under m key → s.Under m key) : Claimed controller s' task' := by
  intro hplace m hmem key hpost
  obtain ⟨pair, hpair, hclaim⟩ := h (hreleased hplace) m (hdrawn ▸ hmem) key (hunder m key hpost)
  rw [AdmissionTask.claims, hpending, List.append_nil, ← hpairs] at hpair
  exact ⟨pair, List.mem_append_left _ hpair, hclaim⟩

theorem moves {raises : Bool} (h : Claimed controller s task) (hshared : SameCounts s s')
    (hmoves : Moves controller task task' raises)
    (hquiet : raises = true → ∀ pair ∈ task.atRisk controller, ∀ key, pair.1.holds key →
      ¬ s.Under pair.2 key) : Claimed controller s' task' := by
  intro hplace m hmem key hpost
  have hunder := under_congr hshared.db hshared.now hpost
  have hreleased : task.place.released = false := by
    cases hcase : task.place.released with
    | false => rfl
    | true => rw [hmoves.released hcase] at hplace; cases hplace
  obtain ⟨pair, hpair, rfl, hholds⟩ := h hreleased m (hmoves.drawn ▸ hmem) key hunder
  refine ⟨pair, ?_, rfl, hholds⟩
  rcases List.mem_append.mp hpair with hpair | hpair
  · exact List.mem_append_left _ (hmoves.held ▸ hpair)
  · rcases hmoves.pending pair hpair with hpair | ⟨hraises, hrisk⟩
    · exact List.mem_append_right _ hpair
    · exact absurd hunder (hquiet hraises pair hrisk key hholds)

/-- The server has run the script: what it has admitted is pending. -/
theorem runs {budget : CapacityBudget} {todo : List CapacityBudget} {member : String} {cancelled : Bool}
    (h : Claimed controller s task) (hplace : task.place = .evaluating budget todo member none cancelled) :
    Claimed controller (s.runAcquire controller task budget member).2 { task with
      place := .evaluating budget todo member (some (s.runAcquire controller task budget member).1)
        cancelled } := by
  intro _ m hmem key hpost
  rcases under_runAcquire hpost with hold | ⟨rfl, hholds, hroom, htenant⟩
  · obtain ⟨pair, hpair, hclaim⟩ := h (by rw [hplace]; rfl) m hmem key hold
    rw [AdmissionTask.claims, AdmissionTask.pending, hplace, List.append_nil] at hpair
    exact ⟨pair, List.mem_append_left _ hpair, hclaim⟩
  · refine ⟨(controller.leaseKeys budget task.request.tenantId, m), List.mem_append_right _ ?_, rfl, hholds⟩
    simp only [AdmissionTask.pending]
    rw [if_neg (not_or.mpr ⟨hroom, htenant⟩)]
    exact List.mem_singleton.mpr rfl

/-- The pair the script has admitted is held. -/
theorem pairs {budget : CapacityBudget} {todo : List CapacityBudget} {member : String}
    {counts : Int × Int} (h : Claimed controller s task)
    (hplace : task.place = .evaluating budget todo member (some counts) false) :
    Claimed controller s { task with
      held := { task.held with
        pairs := (controller.leaseKeys budget task.request.tenantId, member) :: task.held.pairs }
      place := .entering todo } := by
  intro _ m hmem key hpost
  obtain ⟨pair, hpair, hclaim⟩ := h (by rw [hplace]; rfl) m hmem key hpost
  refine ⟨pair, List.mem_append_left _ ?_, hclaim⟩
  rcases List.mem_append.mp hpair with hpair | hpair
  · exact List.mem_cons_of_mem _ hpair
  · rw [AdmissionTask.pending, hplace] at hpair
    simp only at hpair
    split at hpair
    · cases hpair
    · exact List.mem_singleton.mp hpair ▸ List.mem_cons_self ..

/-- The server has given the pair at hand back. -/
theorem unpairs {budget : CapacityBudget} {todo : List CapacityBudget} {member : String}
    {reason : Unpairing} (h : Claimed controller s task)
    (hplace : task.place = .unpairing budget todo member reason) :
    Claimed controller (s.runRelease (controller.leaseKeys budget task.request.tenantId) member)
      (Admission.unpaired task budget todo reason) := by
  have hmoves : Moves controller task (Admission.unpaired task budget todo reason) true :=
    moves_unpaired hplace
  intro _ m hmem key hpost
  obtain ⟨hunder, hgone⟩ := under_runRelease hpost
  obtain ⟨pair, hpair, hm, hholds⟩ := h (by rw [hplace]; rfl) m (hmoves.drawn ▸ hmem) key hunder
  refine ⟨pair, List.mem_append_left _ ?_, hm, hholds⟩
  rw [hmoves.held]
  rcases List.mem_append.mp hpair with hpair | hpair
  · exact hpair
  · have heq : pair = (controller.leaseKeys budget task.request.tenantId, member) := by
      rw [AdmissionTask.pending, hplace] at hpair
      cases reason with
      | rejected => cases hpair
      | cancelled => exact List.mem_singleton.mp hpair
      | raised => exact List.mem_singleton.mp hpair
    subst heq
    exact absurd ⟨hm.symm, hholds⟩ hgone

/-- The last pair it holds is given back, or it is not in Redis. -/
theorem givesPair {failed : Bool} {keys : LeaseKeys} {member : String}
    {pairs : List (LeaseKeys × String)} (h : Claimed controller s task)
    (hplace : task.place = .cleaning failed) (hholds : task.held.pairs = (keys, member) :: pairs)
    (hunder : ∀ m key, s'.Under m key →
      s.Under m key ∧ (task.place.released = false → ¬ (m = member ∧ keys.holds key))) :
    Claimed controller s' { task with held := { task.held with pairs := pairs } } := by
  intro hreleased m hmem key hpost
  obtain ⟨hunder, hgone⟩ := hunder m key hpost
  obtain ⟨pair, hpair, hm, hkey⟩ := h hreleased m hmem key hunder
  rw [AdmissionTask.claims, AdmissionTask.pending, hplace, List.append_nil, hholds] at hpair
  refine ⟨pair, List.mem_append_left _ ?_, hm, hkey⟩
  rcases List.mem_cons.mp hpair with rfl | hpair
  · exact absurd ⟨hm.symm, hkey⟩ (hgone hreleased)
  · exact hpair

end Claimed

/-- What a step does to the members its task has drawn: a new one is new to all. -/
structure Draws (s : Admission) (task : AdmissionTask) (s' : Admission) (task' : AdmissionTask) : Prop where
  drawn : ∀ m ∈ task'.drawn, m ∈ task.drawn ∨ m ∉ s.members ∧ m ∈ s'.members
  members : s.members ⊆ s'.members
  foreign : s'.foreign = s.foreign

theorem draws_effect {raises : Bool} (heffect : AdmissionEffect controller s task raises s' task') :
    Draws s task s' task' := by
  cases heffect with
  | moves hshared hqueue hplace =>
    exact ⟨fun m hmem => .inl (hplace.drawn ▸ hmem), fun m hmem => hshared.members ▸ hmem,
      hshared.foreign⟩
  | draws budget todo member hplace hfresh hshared hheld =>
    rw [hshared, hheld]
    refine ⟨fun m hmem => ?_, List.subset_cons_self _ _, rfl⟩
    rcases List.mem_cons.mp hmem with rfl | hmem
    · exact .inr ⟨hfresh.1, List.mem_cons_self ..⟩
    · exact .inl hmem
  | unpairs budget todo member reason hplace hshared hheld =>
    have hmoves : Moves controller task (Admission.unpaired task budget todo reason) true :=
      moves_unpaired hplace
    rw [hshared, hheld]
    exact ⟨fun m hmem => .inl (hmoves.drawn ▸ hmem), fun _ => id, rfl⟩
  | takes budget todo hahead htenant hpending hplace hroom hqueue hshared hheld =>
    obtain ⟨queueDepth, hshared⟩ := hshared
    rw [hshared, hheld]
    exact ⟨fun _ => .inl, fun _ => id, rfl⟩
  | givesPair failed keys member pairs hplace hholds hshared hheld =>
    rw [hheld]
    rcases hshared with hshared | ⟨hshared, -⟩
    · rw [hshared]
      exact ⟨fun _ => .inl, fun _ => id, rfl⟩
    · rw [hshared]
      exact ⟨fun _ => .inl, fun _ => id, rfl⟩
  | takesTenant budget todo hplace hroom hshared hheld =>
    rw [hshared, hheld]
    exact ⟨fun _ => .inl, fun _ => id, rfl⟩
  | runs budget todo member cancelled hplace hshared hheld =>
    rw [hshared, hheld]
    exact ⟨fun _ => .inl, fun _ => id, rfl⟩
  | pairs budget todo member counts hplace hshared hheld =>
    rw [hshared, hheld]
    exact ⟨fun _ => .inl, fun _ => id, rfl⟩
  | givesTenant failed key tenants hplace hholds hshared hheld =>
    rw [hshared, hheld]
    exact ⟨fun _ => .inl, fun _ => id, rfl⟩
  | givesBudget failed budget budgets hplace hholds hshared hheld =>
    rw [hshared, hheld]
    exact ⟨fun _ => .inl, fun _ => id, rfl⟩
  | ends failed hplace hshared hempty hheld =>
    rw [hshared, hheld]
    exact ⟨fun _ => .inl, fun _ => id, rfl⟩

/-- No call that raises leaves a member of the task in Redis. -/
def Quiet (controller : Controller) (s : Admission) (task : AdmissionTask) : Prop :=
  ∀ pair ∈ task.atRisk controller, ∀ key ∈ [pair.1.shared, pair.1.tenant], ¬ s.Under pair.2 key

instance (controller : Controller) (s : Admission) (task : AdmissionTask) :
    Decidable (Quiet controller s task) :=
  inferInstanceAs (Decidable (∀ _ ∈ _, ∀ _ ∈ _, ¬ _))

theorem Quiet.not_under (h : Quiet controller s task) (pair : LeaseKeys × String)
    (hmem : pair ∈ task.atRisk controller) (key : String) (hholds : pair.1.holds key) :
    ¬ s.Under pair.2 key := by
  refine h pair hmem key ?_
  rcases hholds with rfl | rfl
  · exact List.mem_cons_self ..
  · exact List.mem_cons_of_mem _ (List.mem_singleton.mpr rfl)

theorem claimed_effect {raises : Bool} (hclaimed : Claimed controller s task)
    (hfresh : ∀ m key, s.Under m key → m ∈ s.members ∨ m ∈ s.foreign)
    (hquiet : raises = true → Quiet controller s task)
    (heffect : AdmissionEffect controller s task raises s' task') : Claimed controller s' task' := by
  cases heffect with
  | moves hshared hqueue hplace => exact hclaimed.moves hshared hplace fun hraises => (hquiet hraises).not_under
  | takes budget todo hahead htenant hpending hplace hroom hqueue hshared hheld =>
    obtain ⟨queueDepth, rfl⟩ := hshared
    exact hclaimed.of_pairs (fun _ => hplace) hpending (by rw [hheld]) (by rw [hheld]) fun _ _ => id
  | takesTenant budget todo hplace hroom hshared hheld =>
    rw [hshared]
    refine hclaimed.of_pairs ?_ ?_ (by rw [hheld]) (by rw [hheld]) fun _ _ => id
    · rw [hplace]
      exact fun _ => rfl
    · rw [AdmissionTask.pending, hplace]
  | draws budget todo member hplace hdrawn hshared hheld =>
    have hpending : task.pending controller = [] := by rw [AdmissionTask.pending, hplace]
    rw [hshared, hheld]
    intro _ m hmem key hunder
    have hold : s.Under m key := hunder
    rcases List.mem_cons.mp hmem with rfl | hmem
    · exact absurd (hfresh m key hold) (not_or.mpr hdrawn)
    · obtain ⟨pair, hpair, hclaim⟩ := hclaimed (by rw [hplace]; rfl) m hmem key hold
      rw [AdmissionTask.claims, hpending, List.append_nil] at hpair
      exact ⟨pair, List.mem_append_left _ hpair, hclaim⟩
  | runs budget todo member cancelled hplace hshared hheld =>
    rw [hshared, hheld]
    exact hclaimed.runs hplace
  | pairs budget todo member counts hplace hshared hheld =>
    rw [hshared, hheld]
    exact hclaimed.pairs hplace
  | unpairs budget todo member reason hplace hshared hheld =>
    rw [hshared, hheld]
    exact hclaimed.unpairs hplace
  | givesTenant failed key tenants hplace hholds hshared hheld =>
    rw [hshared]
    refine hclaimed.of_pairs ?_ ?_ (by rw [hheld]) (by rw [hheld]) fun _ _ => id
    · rw [hheld]
      exact id
    · rw [AdmissionTask.pending, hplace]
  | givesBudget failed budget budgets hplace hholds hshared hheld =>
    rw [hshared]
    refine hclaimed.of_pairs ?_ ?_ (by rw [hheld]) (by rw [hheld]) fun _ _ => id
    · rw [hheld]
      exact id
    · rw [AdmissionTask.pending, hplace]
  | givesPair failed keys member pairs hplace hholds hshared hheld =>
    rw [hheld]
    refine hclaimed.givesPair hplace hholds ?_
    rcases hshared with hshared | ⟨hshared, hraises⟩
    · rw [hshared]
      exact fun m key hunder => ⟨(under_runRelease hunder).1, fun _ => (under_runRelease hunder).2⟩
    · rw [hshared]
      refine fun m key hunder => ⟨hunder, fun hreleased hgone => ?_⟩
      -- a lease that is released is not at risk, a task that failed is
      cases failed with
      | false => rw [hplace] at hreleased; cases hreleased
      | true =>
        obtain ⟨rfl, hkey⟩ := hgone
        refine (hquiet hraises).not_under (keys, m) ?_ key hkey hunder
        rw [AdmissionTask.atRisk, hplace, hholds]
        exact List.mem_singleton.mpr rfl
  | ends failed hplace hshared hempty hheld =>
    rw [hshared]
    refine hclaimed.of_pairs ?_ ?_ (by rw [hheld]) (by rw [hheld]) fun _ _ => id
    · rw [hheld, hplace]
      cases failed with
      | false =>
        intro htenant
        cases htenant
      | true => exact fun _ => rfl
    · rw [AdmissionTask.pending, hplace]

end AiPlatform.Dispatch
